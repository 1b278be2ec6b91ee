/-!
# Pieces of a text

A text, of characters or of code points, is cut at every occurrence of one of them, and
`joinWith_splitAll` says that joining the pieces gives it back.
-/

namespace Quorum.Text

variable {α : Type}

/-- Texts one after the other with `sep` between them. -/
def joinWith (sep : α) : List (List α) → List α
  | [] => []
  | [s] => s
  | s :: t :: r => s ++ sep :: joinWith sep (t :: r)

variable [DecidableEq α]

/-- The pieces of a text between the characters `sep`; there is one more than there are `sep`. -/
def splitAll (sep : α) : List α → List (List α)
  | [] => [[]]
  | c :: r =>
    if c = sep then [] :: splitAll sep r
    else match splitAll sep r with
      | [] => [[c]]
      | s :: t => (c :: s) :: t

theorem splitAll_ne_nil (sep : α) (s : List α) : splitAll sep s ≠ [] := by
  cases s with
  | nil => simp [splitAll]
  | cons c r =>
    rw [splitAll]
    split
    · simp
    · split <;> simp

/-- Joining the pieces gives the text back. -/
theorem joinWith_splitAll (sep : α) (s : List α) : joinWith sep (splitAll sep s) = s := by
  induction s with
  | nil => rfl
  | cons c r ih =>
    rw [splitAll]
    split
    · rename_i h
      obtain ⟨t, u, e⟩ := List.exists_cons_of_ne_nil (splitAll_ne_nil sep r)
      rw [e] at ih ⊢
      simp [joinWith, ih, h]
    · split
      · rename_i e
        exact absurd e (splitAll_ne_nil sep r)
      · rename_i s t e
        rw [e] at ih
        cases t <;> simp_all [joinWith]

end Quorum.Text
