import Mathlib
import Quorum.Ballot
import Quorum.Proofs.Journal

/-!
# The vote as a function of its candidates

A tally lists each candidate once, by first occurrence, with the number of its occurrences
(`count_eq`). An election from any tally (`Won`, `elect_won`) is won by a candidate with the most
votes, so that the one over a count (`Elected`, `elect_count`) is won by a candidate that
occurs most often: the smallest such one, or the one that occurs first. It reports nothing but a tie
(`events_elect`). Other candidates in the places of these do not change who wins, unless the smallest
of several leaders does (`count_map`, `elect_rename`).
-/

namespace Quorum.Ballot

/-! ## Counting -/

theorem nodup_eraseDups : ∀ cs : List Int, cs.eraseDups.Nodup
  | [] => by simp
  | v :: r => by
    rw [List.eraseDups_cons]
    exact List.nodup_cons.2 ⟨by simp, nodup_eraseDups _⟩
termination_by cs => cs.length
decreasing_by exact Nat.lt_succ_of_le (List.length_filter_le _ _)

/-- A vote goes to its candidate's entry, or makes a new one at the end. -/
theorem addVote_map (v : Int) (n : Int → Int) {l : List Int} (hl : l.Nodup) :
    addVote v (l.map fun w => (w, n w)) =
      if v ∈ l then l.map fun w => (w, if w = v then n w + 1 else n w)
      else l.map (fun w => (w, n w)) ++ [(v, 1)] := by
  induction l with
  | nil => rfl
  | cons a r ih =>
    obtain ⟨ha, hr⟩ := List.nodup_cons.1 hl
    rw [List.map_cons, addVote]
    by_cases h : a = v
    · subst h
      have he : ∀ w ∈ r, (w, n w) = (w, if w = a then n w + 1 else n w) := fun w hw => by
        rw [if_neg (ne_of_mem_of_not_mem hw ha)]
      simp [List.map_congr_left he]
    · rw [if_neg h, ih hr]
      by_cases hv : v ∈ r
      · simp [hv, h]
      · simp [hv, Ne.symm h]

theorem count_append_singleton (cs : List Int) (v : Int) :
    count (cs ++ [v]) = addVote v (count cs) := by
  rw [count, List.foldl_append]
  rfl

theorem eraseDups_append_singleton (cs : List Int) (v : Int) :
    (cs ++ [v]).eraseDups = if v ∈ cs then cs.eraseDups else cs.eraseDups ++ [v] := by
  rw [List.eraseDups_append]
  by_cases h : v ∈ cs <;> simp [List.removeAll, h, List.eraseDups_cons]

/-- A tally lists each candidate once, by first occurrence, with its number of occurrences. -/
theorem count_eq (cs : List Int) : count cs = cs.eraseDups.map fun v => (v, (cs.count v : Int)) := by
  induction cs using List.reverseRecOn with
  | nil => rfl
  | append_singleton cs v ih =>
    rw [count_append_singleton, ih, addVote_map v _ (nodup_eraseDups cs),
      eraseDups_append_singleton]
    simp only [List.mem_eraseDups]
    by_cases h : v ∈ cs
    · simp only [h, ite_true]
      refine List.map_congr_left fun w _ => ?_
      rw [List.count_append, List.count_singleton]
      by_cases hw : w = v
      · simp [hw]
      · simp [hw, Ne.symm hw]
    · simp only [h, ite_false, List.map_append, List.map_singleton, List.count_append]
      congr 1
      · refine List.map_congr_left fun w hw => ?_
        have hv : v ≠ w := fun e => h (List.mem_eraseDups.1 (e ▸ hw))
        simp [hv]
      · simp [List.count_eq_zero_of_not_mem h]

theorem count_ne_nil {cs : List Int} (h : cs ≠ []) : count cs ≠ [] := by
  obtain ⟨v, r, rfl⟩ := List.exists_cons_of_ne_nil h
  simp [count_eq, List.eraseDups_cons]

theorem keys_count (cs : List Int) : (count cs).map Prod.fst = cs.eraseDups := by
  rw [count_eq, List.map_map]
  simp [Function.comp_def]

theorem nodup_keys_count (cs : List Int) : ((count cs).map Prod.fst).Nodup := by
  rw [keys_count]
  exact nodup_eraseDups cs

theorem mem_count {cs : List Int} {v n : Int} : (v, n) ∈ count cs ↔ v ∈ cs ∧ n = cs.count v := by
  simp only [count_eq, List.mem_map, List.mem_eraseDups, Prod.mk.injEq]
  constructor
  · rintro ⟨w, hw, rfl, rfl⟩
    exact ⟨hw, rfl⟩
  · rintro ⟨hv, rfl⟩
    exact ⟨v, hv, rfl, rfl⟩

theorem find?_eraseDups (p : Int → Bool) : ∀ cs : List Int, cs.eraseDups.find? p = cs.find? p
  | [] => rfl
  | v :: r => by
    rw [List.eraseDups_cons, List.find?_cons, List.find?_cons]
    split
    · rfl
    · rename_i hv
      rw [find?_eraseDups p _, List.find?_filter]
      congr 1
      funext w
      by_cases hw : w = v <;> simp [hw, hv]
termination_by cs => cs.length
decreasing_by exact Nat.lt_succ_of_le (List.length_filter_le _ _)

/-! ## Leaders -/

theorem le_most {e : Int × Int} : ∀ {t : Tally}, e ∈ t → e.2 ≤ most t
  | [_], h => by rw [List.mem_singleton.1 h, most]
  | (_, n) :: b :: r, h => by
    rw [most]
    · rcases List.mem_cons.1 h with rfl | h
      · exact Int.le_max_left _ _
      · exact (le_most h).trans (Int.le_max_right _ _)
    · simp

theorem exists_most : ∀ {t : Tally}, t ≠ [] → ∃ e ∈ t, e.2 = most t
  | [e], _ => ⟨e, List.mem_cons_self, rfl⟩
  | a :: b :: r, _ => by
    obtain ⟨e, he, hm⟩ := exists_most (List.cons_ne_nil b r)
    rw [most]
    · rcases Int.le_total a.2 (most (b :: r)) with h | h
      · exact ⟨e, List.mem_cons_of_mem _ he, by rw [hm, Int.max_eq_right h]⟩
      · exact ⟨a, List.mem_cons_self, by rw [Int.max_eq_left h]⟩
    · simp

theorem mem_leaders {t : Tally} {v : Int} : v ∈ leaders t ↔ (v, most t) ∈ t := by
  simp only [leaders, List.mem_map, List.mem_filter, beq_iff_eq]
  constructor
  · rintro ⟨c, ⟨hc, hm⟩, rfl⟩
    rwa [← hm]
  · exact fun h => ⟨_, ⟨h, rfl⟩, rfl⟩

theorem leaders_ne_nil {t : Tally} (ht : t ≠ []) : leaders t ≠ [] := by
  obtain ⟨⟨v, n⟩, he, rfl⟩ := exists_most ht
  exact List.ne_nil_of_mem (mem_leaders.2 he)

/-- Candidates that are listed once lead once. -/
theorem nodup_leaders {t : Tally} (h : (t.map Prod.fst).Nodup) : (leaders t).Nodup :=
  h.sublist (List.filter_sublist.map Prod.fst)

theorem one_lt_length_leaders_iff {t : Tally} (h : (t.map Prod.fst).Nodup) :
    1 < (leaders t).length ↔ ∃ v w, v ≠ w ∧ (v, most t) ∈ t ∧ (w, most t) ∈ t := by
  rw [← List.toFinset_card_of_nodup (nodup_leaders h), Finset.one_lt_card]
  simp only [List.mem_toFinset, mem_leaders]
  constructor
  · rintro ⟨v, hv, w, hw, hne⟩
    exact ⟨v, w, hne, hv, hw⟩
  · rintro ⟨v, w, hne, hv, hw⟩
    exact ⟨v, hv, w, hw, hne⟩

/-- The candidates listed before the first leader have fewer votes. -/
theorem exists_of_head?_leaders {t : Tally} {v : Int} (h : (leaders t).head? = some v) :
    ∃ before after, t = before ++ (v, most t) :: after ∧ ∀ c ∈ before, c.2 < most t := by
  rw [leaders, List.head?_map, List.head?_filter, Option.map_eq_some_iff] at h
  obtain ⟨c, hc, rfl⟩ := h
  obtain ⟨hm, before, after, he, hb⟩ := List.find?_eq_some_iff_append.1 hc
  have hm : c.2 = most t := by simpa using hm
  refine ⟨before, after, by rw [← hm]; exact he, fun d hd => ?_⟩
  have hle : d.2 ≤ most t := le_most (he ▸ List.mem_append_left _ hd)
  have hne : d.2 ≠ most t := by simpa using hb d hd
  omega

/-! ## Elections -/

theorem pick_smallest : ∀ l : List Int, Rule.smallest.pick l = l.min?
  | [] => rfl
  | _ :: _ => rfl

theorem pick_first : ∀ l : List Int, Rule.first.pick l = l.head?
  | [] => rfl
  | _ :: _ => rfl

theorem exists_pick (rule : Rule) {l : List Int} (h : l ≠ []) : ∃ v, rule.pick l = some v := by
  obtain ⟨v, r, rfl⟩ := List.exists_cons_of_ne_nil h
  exact ⟨_, rfl⟩

theorem mem_of_pick {rule : Rule} {l : List Int} {v : Int} (h : rule.pick l = some v) : v ∈ l := by
  cases rule with
  | smallest => exact List.min?_mem (pick_smallest l ▸ h)
  | first => exact List.mem_of_mem_head? (pick_first l ▸ h)

/-- A tally with candidates and a known rule have a winner. -/
theorem elect_eq {t : Tally} {name : String} {rule : Rule} {v : Int} (ht : t ≠ [])
    (hr : Rule.ofName name = .ok rule) (hv : rule.pick (leaders t) = some v) :
    (elect t name).outcome = .ok ⟨v, most t, decide (1 < (leaders t).length), total t⟩ := by
  have he : t.isEmpty = false := by simpa using ht
  by_cases h : 1 < (leaders t).length <;> simp [elect, he, hr, hv, h]

theorem elect_eq_ok {t : Tally} {name : String} {e : Election}
    (h : (elect t name).outcome = .ok e) :
    t ≠ [] ∧ ∃ rule v, Rule.ofName name = .ok rule ∧ rule.pick (leaders t) = some v ∧
      e = ⟨v, most t, decide (1 < (leaders t).length), total t⟩ := by
  have ht : t ≠ [] := by
    rintro rfl
    cases h
  have he : t.isEmpty = false := by simpa using ht
  cases hr : Rule.ofName name with
  | error f => simp [elect, he, hr] at h
  | ok rule =>
    obtain ⟨v, hv⟩ := exists_pick rule (leaders_ne_nil ht)
    rw [elect_eq ht hr hv, Except.ok.injEq] at h
    exact ⟨ht, rule, v, rfl, hv, h.symm⟩

/-- An election reports nothing but a tie. -/
theorem events_elect {t : Tally} {name : String} {e : Election}
    (h : (elect t name).outcome = .ok e) :
    ∃ rule, Rule.ofName name = .ok rule ∧ (elect t name).events =
      if e.tied then [.tieBroken (leaders t).length e.votes rule.name] else [] := by
  obtain ⟨ht, rule, v, hr, hv, rfl⟩ := elect_eq_ok h
  have he : t.isEmpty = false := by simpa using ht
  refine ⟨rule, hr, ?_⟩
  by_cases hl : 1 < (leaders t).length <;>
    simp [elect, he, hr, hv, hl, Journal.events_bind, Journal.next]

theorem winner_mem_of_elect {cs : List Int} {name : String} {e : Election}
    (h : (elect (count cs) name).outcome = .ok e) : e.winner ∈ cs := by
  obtain ⟨-, rule, v, -, hv, rfl⟩ := elect_eq_ok h
  exact (mem_count.1 (mem_leaders.1 (mem_of_pick hv))).1

/-- What an election from a tally comes to. -/
structure Won (t : Tally) (rule : Rule) (e : Election) : Prop where
  mem : (e.winner, e.votes) ∈ t
  le_votes : ∀ c ∈ t, c.2 ≤ e.votes
  total_eq : e.total = (t.map Prod.snd).sum
  tied_iff : e.tied = true ↔ ∃ v w, v ≠ w ∧ (v, e.votes) ∈ t ∧ (w, e.votes) ∈ t
  le_of_smallest : rule = .smallest → ∀ v, (v, e.votes) ∈ t → e.winner ≤ v
  /-- By the other rule, the candidates listed before the winner have fewer votes. -/
  exists_of_first : rule = .first → ∃ before after, t = before ++ (e.winner, e.votes) :: after ∧
    ∀ c ∈ before, c.2 < e.votes

theorem elect_won {t : Tally} {name : String} {rule : Rule} (ht : t ≠ [])
    (hk : (t.map Prod.fst).Nodup) (hr : Rule.ofName name = .ok rule) :
    ∃ e, (elect t name).outcome = .ok e ∧ Won t rule e := by
  obtain ⟨v, hv⟩ := exists_pick rule (leaders_ne_nil ht)
  refine ⟨_, elect_eq ht hr hv, mem_leaders.1 (mem_of_pick hv), fun c hc => le_most hc, ?_,
    decide_eq_true_iff.trans (one_lt_length_leaders_iff hk), ?_, ?_⟩
  · rw [total, List.sum_eq_foldl]
  · rintro rfl w hw
    exact (List.min?_eq_some_iff.1 (pick_smallest _ ▸ hv)).2 w (mem_leaders.2 hw)
  · rintro rfl
    exact exists_of_head?_leaders (pick_first _ ▸ hv)

/-- What an election of one of the candidates comes to. -/
structure Elected (cs : List Int) (rule : Rule) (e : Election) : Prop where
  total_eq : e.total = cs.length
  votes_eq : e.votes = cs.count e.winner
  count_le : ∀ v, cs.count v ≤ cs.count e.winner
  tied_iff : e.tied = true ↔ ∃ v, v ≠ e.winner ∧ cs.count v = cs.count e.winner
  le_of_smallest : rule = .smallest → ∀ v, cs.count v = cs.count e.winner → e.winner ≤ v
  find_of_first : rule = .first →
    cs.find? (fun v => cs.count v = cs.count e.winner) = some e.winner

/-- The votes of a candidate are the number of its occurrences. -/
theorem Won.elected {cs : List Int} {rule : Rule} {e : Election} (h : Won (count cs) rule e) :
    Elected cs rule e := by
  obtain ⟨hw, hvotes⟩ := mem_count.1 h.mem
  have hmem : ∀ v, (v, e.votes) ∈ count cs ↔ cs.count v = cs.count e.winner := fun v => by
    rw [mem_count, hvotes, Int.ofNat_inj]
    constructor
    · exact fun hv => hv.2.symm
    · intro hc
      refine ⟨List.count_pos_iff.1 ?_, hc.symm⟩
      rw [hc]
      exact List.count_pos_iff.2 hw
  refine ⟨?_, hvotes, fun v => ?_, ?_, fun hr v hv => h.le_of_smallest hr v ((hmem v).2 hv), ?_⟩
  · rw [h.total_eq, List.sum_eq_foldl]
    exact count_total cs
  · by_cases hv : v ∈ cs
    · have hle : (cs.count v : Int) ≤ e.votes := h.le_votes _ (mem_count.2 ⟨hv, rfl⟩)
      omega
    · rw [List.count_eq_zero_of_not_mem hv]
      exact Nat.zero_le _
  · rw [h.tied_iff]
    constructor
    · rintro ⟨v, w, hne, hv, hw⟩
      by_cases hvw : v = e.winner
      · exact ⟨w, fun hww => hne (hvw.trans hww.symm), (hmem w).1 hw⟩
      · exact ⟨v, hvw, (hmem v).1 hv⟩
    · rintro ⟨v, hne, hv⟩
      exact ⟨v, e.winner, hne, (hmem v).2 hv, h.mem⟩
  · intro hr
    obtain ⟨before, after, he, hb⟩ := h.exists_of_first hr
    have hkeys : cs.eraseDups = before.map Prod.fst ++ e.winner :: after.map Prod.fst := by
      rw [← keys_count, he, List.map_append, List.map_cons]
    rw [← find?_eraseDups, List.find?_eq_some_iff_append]
    refine ⟨by simp, _, _, hkeys, fun v hv => ?_⟩
    obtain ⟨c, hc, rfl⟩ := List.mem_map.1 hv
    have hlt := hb c hc
    have hcount : c.2 = cs.count c.1 := (mem_count.1 (he ▸ List.mem_append_left _ hc)).2
    simp only [Bool.not_eq_true', decide_eq_false_iff_not]
    omega

theorem elect_count {cs : List Int} {name : String} {rule : Rule} (h : cs ≠ [])
    (hr : Rule.ofName name = .ok rule) :
    ∃ e, (elect (count cs) name).outcome = .ok e ∧ Elected cs rule e := by
  obtain ⟨e, he, hwon⟩ := elect_won (count_ne_nil h) (nodup_keys_count cs) hr
  exact ⟨e, he, hwon.elected⟩

/-! ## Other candidates -/

/-- The tally with another candidate in the place of each. -/
def rename (h : Int → Int) (t : Tally) : Tally :=
  t.map fun c => (h c.1, c.2)

section

variable {h : Int → Int} (hh : Function.Injective h)
include hh

theorem addVote_rename (v : Int) (t : Tally) :
    addVote (h v) (rename h t) = rename h (addVote v t) := by
  induction t with
  | nil => rfl
  | cons c r ih =>
    obtain ⟨w, n⟩ := c
    have hcons : rename h ((w, n) :: r) = (h w, n) :: rename h r := rfl
    rw [hcons, addVote, addVote, ih]
    by_cases hw : w = v
    · rw [if_pos hw, if_pos (congrArg h hw)]
      rfl
    · rw [if_neg hw, if_neg (hh.ne hw)]
      rfl

theorem count_map (cs : List Int) : count (cs.map h) = rename h (count cs) := by
  induction cs using List.reverseRecOn with
  | nil => rfl
  | append_singleton cs v ih =>
    rw [List.map_append, List.map_singleton, count_append_singleton, count_append_singleton, ih,
      addVote_rename hh]

end

theorem most_rename (h : Int → Int) : ∀ t : Tally, most (rename h t) = most t
  | [] => rfl
  | [_] => rfl
  | c :: d :: r => by
    have ih := most_rename h (d :: r)
    have hcons : rename h (c :: d :: r) = (h c.1, c.2) :: rename h (d :: r) := rfl
    rw [hcons, most, most, ih]
    · simp
    · simp [rename]

theorem leaders_rename (h : Int → Int) (t : Tally) :
    leaders (rename h t) = (leaders t).map h := by
  rw [leaders, leaders, most_rename, rename, List.filter_map, List.map_map, List.map_map]
  rfl

theorem total_rename (h : Int → Int) (t : Tally) : total (rename h t) = total t := by
  rw [total, total, rename, List.map_map]
  rfl

/-- Either rule looks at no more than the order of the leaders and their places in the list. -/
theorem pick_map {h : Int → Int} (hh : Monotone h) (rule : Rule) (l : List Int) :
    rule.pick (l.map h) = (rule.pick l).map h := by
  cases l with
  | nil => rfl
  | cons v r =>
    cases rule with
    | smallest =>
      show some ((r.map h).foldl min (h v)) = some (h (r.foldl min v))
      rw [List.foldl_map, List.foldl_hom h fun _ _ => hh.map_min.symm]
    | first => rfl

/-- An election that no tie decides may have any other candidates. -/
theorem elect_rename {t : Tally} {name : String} {e : Election} {h : Int → Int}
    (he : (elect t name).outcome = .ok e) (hh : Monotone h ∨ e.tied = false) :
    (elect (rename h t) name).outcome = .ok { e with winner := h e.winner } := by
  obtain ⟨ht, rule, v, hr, hv, rfl⟩ := elect_eq_ok he
  have ht' : rename h t ≠ [] := fun h₀ => ht (List.map_eq_nil_iff.1 h₀)
  have hv' : rule.pick ((leaders t).map h) = some (h v) := by
    rcases hh with hm | hl
    · rw [pick_map hm, hv, Option.map_some]
    · obtain ⟨w, hw⟩ : ∃ w, leaders t = [w] := by
        refine List.length_eq_one_iff.1 (le_antisymm (not_lt.1 (of_decide_eq_false hl)) ?_)
        exact List.length_pos_of_mem (mem_of_pick hv)
      have hvw : v = w := List.mem_singleton.1 (hw ▸ mem_of_pick hv)
      rw [hw, hvw]
      cases rule <;> rfl
  rw [elect_eq ht' hr (by rw [leaders_rename, hv']), most_rename, total_rename, leaders_rename,
    List.length_map]

end Quorum.Ballot
