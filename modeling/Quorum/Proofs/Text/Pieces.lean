import Quorum.Text.Pieces

/-!
# Cutting and joining

Cutting a text at a character and joining texts by it undo each other: `joinWith_splitAll` in one
direction, `splitAll_joinWith` in the other, for pieces without the character, as all pieces are
that are cut (`notMem_of_mem_splitAll`). Both are the library's operations on lists (`splitAll_eq`,
`joinWith_eq`). What is done to each character is done to each piece (`flatMap_joinWith`).
-/

namespace Quorum.Text

variable {α : Type}

theorem joinWith_eq (sep : α) (l : List (List α)) : joinWith sep l = [sep].intercalate l := by
  induction l with
  | nil => rfl
  | cons s r ih =>
    cases r with
    | nil => simp [joinWith]
    | cons t r => simp [joinWith, ih]

theorem mem_joinWith {a sep : α} (h : a ≠ sep) {l : List (List α)} :
    a ∈ joinWith sep l ↔ ∃ s ∈ l, a ∈ s := by
  induction l with
  | nil => simp [joinWith]
  | cons s r ih =>
    cases r with
    | nil => simp [joinWith]
    | cons t r =>
      rw [joinWith, List.mem_append, List.mem_cons, ih]
      simp [h]

/-- A change of every character that leaves `sep` alone is a change of every piece. -/
theorem flatMap_joinWith {g : α → List α} {sep : α} (h : g sep = [sep]) (l : List (List α)) :
    (joinWith sep l).flatMap g = joinWith sep (l.map (List.flatMap g)) := by
  induction l with
  | nil => rfl
  | cons s r ih =>
    cases r with
    | nil => rfl
    | cons t r => simpa [joinWith, h] using ih

variable [DecidableEq α]

theorem splitAll_eq (sep : α) (s : List α) : splitAll sep s = s.splitOn sep := by
  induction s with
  | nil => rfl
  | cons c r ih =>
    rw [splitAll, ih, List.splitOn_cons_eq_if_modifyHead]
    obtain ⟨t, u, e⟩ := List.exists_cons_of_ne_nil (List.splitOn_ne_nil sep r)
    simp [e]

theorem splitAll_joinWith {sep : α} {l : List (List α)} (hne : l ≠ []) (h : ∀ s ∈ l, sep ∉ s) :
    splitAll sep (joinWith sep l) = l := by
  rw [splitAll_eq, joinWith_eq, List.splitOn_intercalate sep h hne]

theorem notMem_of_mem_splitAll {sep : α} {s : List α} : ∀ piece ∈ splitAll sep s, sep ∉ piece := by
  induction s with
  | nil => simp [splitAll]
  | cons c r ih =>
    rw [splitAll]
    split
    · simpa using ih
    · rename_i hc
      split
      · simpa using Ne.symm hc
      · rename_i t u e
        rw [e, List.forall_mem_cons] at ih
        exact List.forall_mem_cons.2 ⟨by simp [Ne.symm hc, ih.1], ih.2⟩

end Quorum.Text
