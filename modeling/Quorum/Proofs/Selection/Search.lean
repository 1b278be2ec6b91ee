import Quorum.Proofs.Selection
import Quorum.Selection.Search

/-!
# What a search finds and where it looks

A search that goes on from a position finds what is taken so far followed by each selection of the
elements from there on, and in the end nothing more is taken than before (`from?_searches`). It never
goes on from a position that leaves too few elements (`HasRoom`), so that every branch it enters has a
selection, and the first one is reached straight away (`descent`).

All this is one invariant of the visits (`Explores`). A turn of the loop preserves it
(`Explores.turn`), and by induction on how many elements are left, so does the search from any
position (`fromExplores`).
-/

namespace Quorum.Selection.Search

variable {α : Type} {pool : List α} {k start i : Nat} {taken : List α}

/-- The elements from the position on are enough to take `k` in all. -/
def HasRoom (pool : List α) (k start : Nat) (taken : List α) : Prop :=
  taken.length ≤ k ∧ k - taken.length ≤ (pool.drop start).length

/-- The way to the first selection: the search takes one element after the other until it is
complete. -/
def descent (pool : List α) (k start : Nat) (taken : List α) : List (Visit α) :=
  ((List.range (k - taken.length + 1)).map fun n =>
      .call (start + n) (taken ++ (pool.drop start).take n)) ++
    [.found (taken ++ (pool.drop start).take (k - taken.length))]

/-- What the visits after the call for a position come to. -/
structure Explores (pool : List α) (k start : Nat) (taken : List α) (visits : List (Visit α)) :
    Prop where
  selectionsIn_eq :
    selectionsIn visits = (choose (k - taken.length) (pool.drop start)).map (taken ++ ·)
  /-- No branch is entered that has too few elements. -/
  hasRoom : ∀ s t, .call s t ∈ visits → HasRoom pool k s t
  descent_prefix : HasRoom pool k start taken →
    descent pool k start taken <+: .call start taken :: visits

/-! ## Selections -/

theorem selectionsIn_append (v w : List (Visit α)) :
    selectionsIn (v ++ w) = selectionsIn v ++ selectionsIn w :=
  List.filterMap_append

theorem selectionsIn_call (v : List (Visit α)) :
    selectionsIn (.call start taken :: v) = selectionsIn v :=
  rfl

/-! ## One turn -/

theorem descent_of_lt (hi : i < pool.length) (hk : taken.length < k) :
    descent pool k i taken =
      .call i taken :: descent pool k (i + 1) (taken ++ [pool[i]]) := by
  have hn : k - taken.length = k - (taken ++ [pool[i]]).length + 1 := by
    rw [List.length_append, List.length_singleton]
    omega
  rw [descent, descent, hn, List.range_succ_eq_map, List.map_cons, List.map_map,
    List.drop_eq_getElem_cons hi]
  simp [Function.comp_def, Nat.add_assoc, Nat.add_comm 1, -List.getElem_cons_drop]

/-- When `k` elements are taken they are a selection, and nothing else is looked at. -/
theorem explores_complete (hk : taken.length = k) : Explores pool k start taken [.found taken] where
  selectionsIn_eq := by simp [selectionsIn, Visit.selection?, hk, choose]
  hasRoom := by simp
  descent_prefix := by simp [descent, hk]

/-- From a position that leaves too few elements, nothing is looked at. -/
theorem explores_nil (hk : taken.length ≤ k) (h : ¬ HasRoom pool k i taken) :
    Explores pool k i taken [] where
  selectionsIn_eq := by
    have hlt : (pool.drop i).length < k - taken.length := not_le.1 fun hle => h ⟨hk, hle⟩
    rw [choose_eq_nil_iff.2 hlt]
    rfl
  hasRoom := by simp
  descent_prefix hr := absurd hr h

/-- A turn of the loop: the selections with the next element come before those without it. -/
theorem Explores.turn {inner rest : List (Visit α)} (hi : i < pool.length) (hk : taken.length < k)
    (hr : HasRoom pool k i taken)
    (hinner : Explores pool k (i + 1) (taken ++ [pool[i]]) inner)
    (hrest : Explores pool k (i + 1) taken rest) :
    Explores pool k i taken (.call (i + 1) (taken ++ [pool[i]]) :: inner ++ rest) := by
  have hlen : (taken ++ [pool[i]]).length = taken.length + 1 := by simp
  obtain ⟨m, hm⟩ : ∃ m, k - taken.length = m + 1 := ⟨k - taken.length - 1, by omega⟩
  have hm' : k - (taken ++ [pool[i]]).length = m := by omega
  have hd := hr.2
  have hroom : HasRoom pool k (i + 1) (taken ++ [pool[i]]) := by
    rw [List.length_drop] at hd
    refine ⟨by omega, ?_⟩
    rw [List.length_drop]
    omega
  refine ⟨?_, fun s t hst => ?_, fun _ => ?_⟩
  · have hc : m ≤ (pool.drop (i + 1)).length := hm' ▸ hroom.2
    rw [List.cons_append, selectionsIn_call, selectionsIn_append, hinner.selectionsIn_eq,
      hrest.selectionsIn_eq, hm, hm', List.drop_eq_getElem_cons hi, choose_succ_cons hc,
      List.map_append, List.map_map]
    simp [Function.comp_def]
  · rcases List.mem_append.1 hst with hst | hst
    · rcases List.mem_cons.1 hst with he | hst
      · obtain ⟨rfl, rfl⟩ := Visit.call.inj he
        exact hroom
      · exact hinner.hasRoom s t hst
    · exact hrest.hasRoom s t hst
  · rw [descent_of_lt hi hk]
    exact List.prefix_cons_inj _ |>.2 ((hinner.descent_prefix hroom).trans (List.prefix_append _ _))

/-! ## A whole search -/

theorem lt_stop_iff (hk : taken.length < k) :
    i < stop pool k taken ↔ HasRoom pool k i taken := by
  rw [stop, HasRoom, List.length_drop]
  omega

/-- The loop looks at the elements from the position on, and nothing more is taken than before. -/
def LoopExplores (pool : List α) (k i : Nat) (taken : List α) : Prop :=
  ∃ visits, loop? pool k (stop pool k taken) i taken = some ⟨visits, taken⟩ ∧
    Explores pool k i taken visits

/-- So does the search, after its call. -/
def FromExplores (pool : List α) (k start : Nat) (taken : List α) : Prop :=
  ∃ visits, from? pool k start taken = some ⟨.call start taken :: visits, taken⟩ ∧
    Explores pool k start taken visits

theorem loopExplores_of_not_hasRoom (hk : taken.length < k) (h : ¬ HasRoom pool k i taken) :
    LoopExplores pool k i taken := by
  refine ⟨[], ?_, explores_nil hk.le h⟩
  rw [loop?, if_neg fun hi => h ((lt_stop_iff hk).1 hi)]

theorem loopExplores_of_hasRoom (hi : i < pool.length) (hk : taken.length < k)
    (hr : HasRoom pool k i taken) (hfrom : FromExplores pool k (i + 1) (taken ++ [pool[i]]))
    (hloop : LoopExplores pool k (i + 1) taken) : LoopExplores pool k i taken := by
  obtain ⟨inner, hf, hinner⟩ := hfrom
  obtain ⟨rest, hl, hrest⟩ := hloop
  refine ⟨_, ?_, hinner.turn hi hk hr hrest⟩
  -- The element that was put at the end is the one that is removed.
  rw [loop?, if_pos ((lt_stop_iff hk).2 hr), dif_pos hi, hf, Option.bind_eq_bind, Option.bind_some,
    List.dropLast_concat, hl]
  rfl

theorem fromExplores_of_loop (hk : taken.length ≤ k)
    (hloop : taken.length < k → LoopExplores pool k start taken) :
    FromExplores pool k start taken := by
  by_cases hc : taken.length = k
  · refine ⟨_, ?_, explores_complete hc⟩
    rw [from?, if_pos hc]
  · obtain ⟨visits, hl, hv⟩ := hloop (lt_of_le_of_ne hk hc)
    refine ⟨visits, ?_, hv⟩
    rw [from?, if_neg hc, hl]
    rfl

/-- By induction on how many elements are left. -/
theorem loopExplores (hk : taken.length < k) : LoopExplores pool k i taken := by
  induction hn : pool.length - i using Nat.strongRecOn generalizing i taken with
  | ind n ih =>
    by_cases hr : HasRoom pool k i taken
    · have hi : i < pool.length := by
        have hd := hr.2
        rw [List.length_drop] at hd
        omega
      have hlen : (taken ++ [pool[i]]).length = taken.length + 1 := by simp
      refine loopExplores_of_hasRoom hi hk hr ?_ (ih _ (by omega) hk rfl)
      exact fromExplores_of_loop (by omega) fun hk => ih _ (by omega) hk rfl
    · exact loopExplores_of_not_hasRoom hk hr

/-- Every search has a result, and what is taken is at the end what it was before. -/
theorem fromExplores (hk : taken.length ≤ k) : FromExplores pool k start taken :=
  fromExplores_of_loop hk loopExplores

/-- A search that has room finds something. -/
theorem exists_found (h : HasRoom pool k start taken) :
    ∃ run, from? pool k start taken = some run ∧ selectionsIn run.visits ≠ [] := by
  obtain ⟨visits, hv, he⟩ : FromExplores pool k start taken := fromExplores h.1
  refine ⟨_, hv, ?_⟩
  rw [selectionsIn_call, he.selectionsIn_eq, ne_eq, List.map_eq_nil_iff, choose_eq_nil_iff]
  exact not_lt.2 h.2

/-- From an ascending list, a search with something taken finds it followed by each ascending
selection of the elements from its position on, in lexicographic order, and leaves what is taken as
it was. Every branch that it enters has a selection. If there are enough elements it finds one, and
the first one without entering any branch but those that lead to it. The selections from a set of
numbers are found by a search that starts with nothing. -/
theorem from?_searches {pool : List Int} (hp : pool.Pairwise (· < ·)) {k : Nat} {taken : List Int}
    (hk : taken.length ≤ k) (start : Nat) :
    ∃ run, from? pool k start taken = some run ∧ run.taken = taken ∧
      (selectionsIn run.visits).Pairwise (List.Lex (· < ·)) ∧
      (∀ s, s ∈ selectionsIn run.visits ↔ ∃ c, s = taken ++ c ∧ c.Pairwise (· < ·) ∧
        c.length = k - taken.length ∧ ∀ i ∈ c, i ∈ pool.drop start) ∧
      (∀ s t, .call s t ∈ run.visits.tail →
        ∃ inner, from? pool k s t = some inner ∧ selectionsIn inner.visits ≠ []) ∧
      (k - taken.length ≤ (pool.drop start).length →
        selectionsIn run.visits ≠ [] ∧ descent pool k start taken <+: run.visits) ∧
      (∀ ids, ascending ids = pool → start = 0 → taken = [] →
        ofIds ids k none = .ok (selectionsIn run.visits) ∧
        ∀ limit, ofIds ids k (some limit) = .ok ((selectionsIn run.visits).take limit)) := by
  obtain ⟨visits, hv, he⟩ : FromExplores pool k start taken := fromExplores hk
  have hd : (pool.drop start).Pairwise (· < ·) := hp.sublist (List.drop_sublist _ _)
  have hsel : selectionsIn (.call start taken :: visits) = _ := he.selectionsIn_eq
  refine ⟨_, hv, rfl, ?_, fun s => ?_, fun s t hst => exists_found (he.hasRoom s t hst),
    fun hr => ⟨?_, he.descent_prefix ⟨hk, hr⟩⟩, ?_⟩
  · rw [hsel]
    exact List.pairwise_map.2 ((pairwise_choose hd).imp fun h => h.append_left _ taken)
  · rw [hsel, List.mem_map]
    simp only [mem_choose_iff_pairwise hd, eq_comm (a := s)]
    exact exists_congr fun c => and_comm
  · rw [hsel, ne_eq, List.map_eq_nil_iff, choose_eq_nil_iff]
    exact not_lt.2 hr
  · rintro ids rfl rfl rfl
    have hk := Int.natCast_nonneg k
    simp only [hsel, ofIds_none ids hk, ofIds_some ids hk, Int.toNat_natCast, List.length_nil,
      Nat.sub_zero, List.drop_zero, List.nil_append, List.map_id', implies_true, and_self]

/-- Two more are taken of the three numbers from the second on. -/
theorem from?_searches_second :
    ∃ run : Run Int, from? [2, 3, 5, 8] 3 1 [7] = some run ∧ run.taken = [7] ∧
      selectionsIn run.visits = [[7, 3, 5], [7, 3, 8], [7, 5, 8]] ∧
      [.call 1 [7], .call 2 [7, 3], .call 3 [7, 3, 5], .found [7, 3, 5]] <+: run.visits := by
  have hp : [2, 3, 5, 8].Pairwise (fun a b : Int => a < b) := by decide
  have he : from? [2, 3, 5, 8] 3 1 [(7 : Int)] = some ⟨[.call 1 [7], .call 2 [7, 3],
      .call 3 [7, 3, 5], .found [7, 3, 5], .call 4 [7, 3, 8], .found [7, 3, 8], .call 3 [7, 5],
      .call 4 [7, 5, 8], .found [7, 5, 8]], [7]⟩ := by
    simp [from?, loop?, stop]
  have hk : [(7 : Int)].length ≤ 3 := by decide
  obtain ⟨run, hr, ht, -, -, -, hf, -⟩ := from?_searches hp hk 1
  refine ⟨run, hr, ht, ?_, (hf (by decide)).2⟩
  obtain rfl := Option.some.inj (hr.symm.trans he)
  rfl

end Quorum.Selection.Search
