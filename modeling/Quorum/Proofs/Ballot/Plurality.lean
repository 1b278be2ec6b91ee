import Quorum.Proofs.Ballot

/-!
# Plurality

What counting candidates and electing one of them come to, for every list of candidates, every
tally and every name of a rule (`decides_by_plurality`). The order of the candidates matters to
nothing but the order of their tally, so that it decides a tie only if the rule goes by it, and a
candidate with more votes than each other one wins in any order.
-/

namespace Quorum.Ballot

/-! ## Names of rules -/

/-- The name stands for the rule; without a name, ties are broken for the smallest leader. -/
inductive Rule.Called : Rule → String → Prop
  | unnamed : Called smallest ""
  | named (rule : Rule) : Called rule rule.name

theorem Rule.ofName_eq_ok_iff {name : String} {rule : Rule} :
    ofName name = .ok rule ↔ rule.Called name := by
  constructor
  · intro h
    rw [ofName] at h
    split at h
    · rename_i hs
      cases h
      rcases Bool.or_eq_true_iff.1 hs with he | he
      · rw [of_decide_eq_true he]
        exact .unnamed
      · rw [of_decide_eq_true he]
        exact .named smallest
    split at h
    · rename_i hf
      cases h
      rw [hf]
      exact .named first
    · cases h
  · rintro (_ | rule)
    · rfl
    · cases rule <;> rfl

theorem Rule.ofName_of_not_called {name : String} (h : ∀ rule : Rule, ¬ rule.Called name) :
    ofName name = .error (.refused (.unknownRule name)) := by
  have hs : ¬ (name = "" ∨ name = smallest.name) := by
    rintro (rfl | rfl)
    · exact h _ .unnamed
    · exact h _ (.named smallest)
  have hf : name ≠ first.name := by
    rintro rfl
    exact h _ (.named first)
  simp [ofName, hs, hf]

/-! ## Tallies -/

/-- The tally of some candidates: each of them once, by first occurrence, with its votes. -/
structure Tallies (cs : List Int) (t : Tally) : Prop where
  nodup_keys : (t.map Prod.fst).Nodup
  pairwise_keys : (t.map Prod.fst).Pairwise fun v w => cs.idxOf v < cs.idxOf w
  mem_iff : ∀ v n, (v, n) ∈ t ↔ v ∈ cs ∧ n = cs.count v
  sum_eq : (t.map Prod.snd).sum = cs.length

theorem pairwise_eraseDups (cs : List Int) :
    cs.eraseDups.Pairwise fun v w => cs.idxOf v < cs.idxOf w := by
  induction cs using List.reverseRecOn with
  | nil => simp
  | append_singleton cs v ih =>
    -- What stands in front of `v` keeps its place.
    have hplace : ∀ w ∈ cs.eraseDups, (cs ++ [v]).idxOf w = cs.idxOf w := fun w hw =>
      List.idxOf_append_of_mem (List.mem_eraseDups.1 hw)
    have hold : cs.eraseDups.Pairwise fun u w => (cs ++ [v]).idxOf u < (cs ++ [v]).idxOf w := by
      refine ih.imp_of_mem fun hu hw hlt => ?_
      rwa [hplace _ hu, hplace _ hw]
    rw [eraseDups_append_singleton]
    split
    · exact hold
    · rename_i hv
      refine List.pairwise_append.2 ⟨hold, List.pairwise_singleton _ v, fun u hu w hw => ?_⟩
      have hlt : cs.idxOf u < cs.length := List.idxOf_lt_length_iff.2 (List.mem_eraseDups.1 hu)
      rw [List.mem_singleton.1 hw, hplace u hu, List.idxOf_append_of_notMem hv]
      omega

theorem tallies_count (cs : List Int) : Tallies cs (count cs) where
  nodup_keys := nodup_keys_count cs
  pairwise_keys := by
    rw [keys_count]
    exact pairwise_eraseDups cs
  mem_iff _ _ := mem_count
  sum_eq := by
    rw [List.sum_eq_foldl]
    exact count_total cs

/-! ## Elections -/

/-- What comes of an election from a tally under the rule of a name: it fails only if there is no
candidate, or else no rule of that name. -/
structure Decides (t : Tally) (name : String) : Prop where
  error_iff : ∀ f, (elect t name).outcome = .error f ↔ t = [] ∧ f = .noCandidates ∨
    t ≠ [] ∧ (∀ rule : Rule, ¬ rule.Called name) ∧ f = .refused (.unknownRule name)
  exists_won : t ≠ [] → ∀ rule : Rule, rule.Called name →
    ∃ e, (elect t name).outcome = .ok e ∧ Won t rule e

theorem outcome_elect_nil (name : String) : (elect [] name).outcome = .error .noCandidates :=
  rfl

theorem outcome_elect_of_not_called {t : Tally} {name : String} (ht : t ≠ [])
    (h : ∀ rule : Rule, ¬ rule.Called name) :
    (elect t name).outcome = .error (.refused (.unknownRule name)) := by
  have he : t.isEmpty = false := by simpa using ht
  simp [elect, he, Rule.ofName_of_not_called h]

theorem decides_of_nodup {t : Tally} (hk : (t.map Prod.fst).Nodup) (name : String) :
    Decides t name := by
  have hwon : t ≠ [] → ∀ rule : Rule, rule.Called name →
      ∃ e, (elect t name).outcome = .ok e ∧ Won t rule e := fun ht rule hr =>
    elect_won ht hk (Rule.ofName_eq_ok_iff.2 hr)
  refine ⟨fun f => ?_, hwon⟩
  by_cases ht : t = []
  · subst ht
    simp [outcome_elect_nil, eq_comm]
  by_cases hr : ∃ rule : Rule, rule.Called name
  · obtain ⟨rule, hr⟩ := hr
    obtain ⟨e, he, -⟩ := hwon ht rule hr
    simp only [he, reduceCtorEq, ht, false_and, false_or, ne_eq, not_false_eq_true, true_and,
      false_iff, not_and]
    exact fun hn => absurd hr (hn rule)
  · have hn : ∀ rule : Rule, ¬ rule.Called name := fun rule h => hr ⟨rule, h⟩
    simp [outcome_elect_of_not_called ht hn, ht, hn, eq_comm]

/-! ## Orders of candidates -/

theorem exists_plurality {cs : List Int} {name : String} {rule : Rule} (h : cs ≠ [])
    (hr : rule.Called name) : ∃ e, plurality cs name = .ok e.winner ∧ Elected cs rule e := by
  obtain ⟨e, he, hE⟩ := elect_count h (Rule.ofName_eq_ok_iff.2 hr)
  exact ⟨e, by rw [plurality, he]; rfl, hE⟩

/-- The smallest of the candidates that occur most often is the same in every order. -/
theorem Elected.winner_le_of_perm {cs cs' : List Int} {e e' : Election} (hp : cs'.Perm cs)
    (h : Elected cs .smallest e) (h' : Elected cs' .smallest e') : e.winner ≤ e'.winner := by
  refine h.le_of_smallest rfl e'.winner (le_antisymm (h.count_le _) ?_)
  have hle := h'.count_le e.winner
  rwa [hp.count_eq, hp.count_eq] at hle

theorem plurality_of_perm {cs cs' : List Int} {name : String} (hp : cs'.Perm cs)
    (hr : Rule.smallest.Called name) : plurality cs' name = plurality cs name := by
  by_cases h : cs = []
  · subst h
    rw [hp.eq_nil]
  have h' : cs' ≠ [] := by
    rintro rfl
    exact h hp.symm.eq_nil
  obtain ⟨e, he, hE⟩ := exists_plurality h hr
  obtain ⟨e', he', hE'⟩ := exists_plurality h' hr
  rw [he, he', le_antisymm (hE.winner_le_of_perm hp hE') (hE'.winner_le_of_perm hp.symm hE)]

theorem plurality_of_count_lt {cs : List Int} {name : String} {rule : Rule} {v : Int}
    (hr : rule.Called name) (hv : ∀ w, w ≠ v → cs.count w < cs.count v) :
    plurality cs name = .ok v := by
  have h : cs ≠ [] := by
    rintro rfl
    exact absurd (hv (v + 1) (by omega)) (by simp)
  obtain ⟨e, he, hE⟩ := exists_plurality h hr
  have hw : e.winner = v := by
    by_contra hne
    have hlt := hv e.winner hne
    have hle := hE.count_le v
    omega
  rw [he, hw]

/-- Candidates are tallied each once, by first occurrence, and a tally's election is won by a
candidate with the most votes, the least one or the one listed first. So the winner by the rule for
the smallest one does not depend on the order of the candidates, and a candidate that occurs more
often than each other one wins by either rule and in any order. -/
theorem decides_by_plurality (cs : List Int) :
    Tallies cs (count cs) ∧
    (∀ t : Tally, (t.map Prod.fst).Nodup → ∀ name, Decides t name) ∧
    ∀ cs', cs'.Perm cs →
      (∀ name, Rule.smallest.Called name → plurality cs' name = plurality cs name) ∧
      ∀ v, (∀ w, w ≠ v → cs.count w < cs.count v) →
        ∀ (rule : Rule) (name : String), rule.Called name → plurality cs' name = .ok v := by
  refine ⟨tallies_count cs, fun t hk name => decides_of_nodup hk name, fun cs' hp => ?_⟩
  refine ⟨fun name hr => plurality_of_perm hp hr, fun v hv rule name hr => ?_⟩
  refine plurality_of_count_lt hr fun w hw => ?_
  rw [hp.count_eq, hp.count_eq]
  exact hv w hw

/-- A tally of counts below zero, and a candidate that occurs thrice among others that are
met before it. -/
theorem decides_by_plurality_negative :
    Decides [(5, -1), (-2, -1), (3, -4)] "" ∧
    (elect [(5, -1), (-2, -1), (3, -4)] "").outcome = .ok ⟨-2, -1, true, -6⟩ ∧
    plurality [1, 3, -20, 3, 3, -8] "smallest" = plurality [3, 1, 3, -8, 3, -20] "smallest" ∧
    plurality [1, 3, -20, 3, 3, -8] "first" = .ok 3 := by
  have hmem : ∀ w ∈ [3, 1, 3, -8, 3, -20], w ≠ (3 : Int) →
      [3, 1, 3, -8, 3, -20].count w < [3, 1, 3, -8, 3, -20].count 3 := by
    decide
  obtain ⟨-, hdecides, horder⟩ := decides_by_plurality [3, 1, 3, -8, 3, -20]
  obtain ⟨hsmallest, hmost⟩ := horder [1, 3, -20, 3, 3, -8] (by decide)
  refine ⟨hdecides _ (by decide) "", by decide, hsmallest _ (.named .smallest), ?_⟩
  refine hmost 3 (fun w hw => ?_) _ _ (.named .first)
  by_cases hm : w ∈ [3, 1, 3, -8, 3, -20]
  · exact hmem w hm hw
  · rw [List.count_eq_zero_of_not_mem hm]
    decide

end Quorum.Ballot
