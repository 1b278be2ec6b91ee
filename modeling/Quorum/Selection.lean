import Quorum.Ascending
import Quorum.Fault

/-!
# Choosing some of many

The selections of `k` elements of a list, in the order in which the earlier elements are
taken first: lexicographic order, when the list is ascending.

* `firstChoices_eq_take`: the first few selections are found without making the others;
* `Selection.ofIds`: the selections from a set of numbers, however they are listed.
-/

namespace Quorum.Selection

variable {α : Type}

/-- All selections of `k` elements, each in the order of the list. A branch with too few
elements left is not entered. -/
def choose : Nat → List α → List (List α)
  | 0, _ => [[]]
  | _ + 1, [] => []
  | k + 1, a :: r =>
    if r.length < k then []
    else (choose k r).map (a :: ·) ++ choose (k + 1) r

/-- The first `limit` selections of `k` elements. -/
def firstChoices (limit : Nat) : Nat → List α → List (List α)
  | 0, _ => [[]].take limit
  | _ + 1, [] => []
  | k + 1, a :: r =>
    if limit = 0 || r.length < k then []
    else
      let here := (firstChoices limit k r).map (a :: ·)
      here ++ firstChoices (limit - here.length) (k + 1) r

theorem firstChoices_eq_take (limit k : Nat) (s : List α) :
    firstChoices limit k s = (choose k s).take limit := by
  induction s generalizing limit k with
  | nil => cases k <;> simp [firstChoices, choose]
  | cons a r ih =>
    cases k with
    | zero => simp [firstChoices, choose]
    | succ k =>
      by_cases hl : limit = 0
      · simp [firstChoices, hl]
      · by_cases hr : r.length < k
        · simp [firstChoices, choose, hr]
        · simp only [firstChoices, choose, hl, hr, decide_false, Bool.or_false, Bool.false_eq_true,
            if_false, ih, List.take_append, List.map_take, List.length_map, List.length_take]
          congr 2
          omega

/-- The selections of `k` of the numbers, or only the first `limit` ones. -/
def ofIds (ids : List Int) (k : Int) (limit : Option Nat) : Except Fault (List (List Int)) :=
  if k < 0 then .error (.refused .negativeSize)
  else .ok <| match limit with
    | some limit => firstChoices limit k.toNat (ascending ids)
    | none => choose k.toNat (ascending ids)

/-- The number of selections of `k` of `n` elements. -/
def binomial (n k : Nat) : Nat :=
  if n < k then 0
  else (List.range (min k (n - k))).foldl (fun c i => c * (n - i) / (i + 1)) 1

/-- The number of selections, for counts that are not negative. -/
def count (n k : Int) : Except Fault Int :=
  if k < 0 || n < 0 then .error (.refused .negativeCount)
  else .ok (binomial n.toNat k.toNat)

end Quorum.Selection
