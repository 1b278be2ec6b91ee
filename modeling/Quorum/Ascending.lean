/-!
# Ascending order

Sorting by a number that belongs to each element, and sets of numbers as ascending lists.

* `mem_sortBy`: sorting loses and adds nothing;
* `mem_ascending`: the set of a list has the list's elements.
-/

namespace Quorum

variable {α : Type}

/-- Puts an element in front of the first one whose number is not smaller. -/
def insertBy (key : α → Int) (a : α) : List α → List α
  | [] => [a]
  | b :: r => if key a ≤ key b then a :: b :: r else b :: insertBy key a r

/-- The elements by ascending number. -/
def sortBy (key : α → Int) (s : List α) : List α :=
  s.foldr (insertBy key) []

/-- Puts a number into an ascending list unless it is there. -/
def insertNew (a : Int) : List Int → List Int
  | [] => [a]
  | b :: r => if a < b then a :: b :: r else if a = b then b :: r else b :: insertNew a r

/-- The numbers of a list, each once, ascending. -/
def ascending (s : List Int) : List Int :=
  s.foldr insertNew []

@[simp] theorem mem_insertBy {key : α → Int} {a b : α} {s : List α} :
    b ∈ insertBy key a s ↔ b = a ∨ b ∈ s := by
  induction s with
  | nil => simp [insertBy]
  | cons c r ih =>
    rw [insertBy]
    split
    · simp
    · simp only [List.mem_cons, ih]
      constructor
      · rintro (h | h | h) <;> simp [h]
      · rintro (h | h | h) <;> simp [h]

@[simp] theorem mem_sortBy {key : α → Int} {b : α} {s : List α} : b ∈ sortBy key s ↔ b ∈ s := by
  induction s with
  | nil => simp [sortBy]
  | cons a r ih => rw [sortBy, List.foldr_cons, mem_insertBy, List.mem_cons, ← ih, sortBy]

@[simp] theorem length_insertBy (key : α → Int) (a : α) (s : List α) :
    (insertBy key a s).length = s.length + 1 := by
  induction s with
  | nil => rfl
  | cons b r ih => rw [insertBy]; split <;> simp [ih]

@[simp] theorem length_sortBy (key : α → Int) (s : List α) : (sortBy key s).length = s.length := by
  induction s with
  | nil => rfl
  | cons a r ih => rw [sortBy, List.foldr_cons, length_insertBy, List.length_cons, ← ih, sortBy]

@[simp] theorem mem_insertNew {a b : Int} {s : List Int} : b ∈ insertNew a s ↔ b = a ∨ b ∈ s := by
  induction s with
  | nil => simp [insertNew]
  | cons c r ih =>
    rw [insertNew]
    split
    · simp
    split
    · rename_i h
      subst h
      simp
    · simp only [List.mem_cons, ih]
      constructor
      · rintro (h | h | h) <;> simp [h]
      · rintro (h | h | h) <;> simp [h]

@[simp] theorem mem_ascending {b : Int} {s : List Int} : b ∈ ascending s ↔ b ∈ s := by
  induction s with
  | nil => simp [ascending]
  | cons a r ih => rw [ascending, List.foldr_cons, mem_insertNew, List.mem_cons, ← ih, ascending]

end Quorum
