/-!
# Searching for selections

The selections of `k` elements of a list as a search finds them that goes on from what it has taken
so far, one element at a time, and goes back when it is through. There is one list of what is taken:
an element is put at its end before the search goes on with it, and removed afterwards.

* `Search.from?`: the search, going on from a position of the list;
* `Search.loop?`: the positions that it tries for the next element.

A search keeps record of what it does (`Run`), so that besides what it finds it shows which branches
it enters. Whoever wants only the first few selections has the search go as far as the last of them:
the record up to there is all that is done.
-/

namespace Quorum.Selection.Search

variable {α : Type}

/-- What a search does: it goes on from a position with what is taken, or finds a selection. -/
inductive Visit (α : Type) where
  | call (start : Nat) (taken : List α)
  | found (selection : List α)
  deriving DecidableEq, Repr

/-- What a search has done, in order, and what is taken when it is through. -/
structure Run (α : Type) where
  visits : List (Visit α)
  taken : List α
  deriving DecidableEq, Repr

/-- The selection that is found, if one is. -/
def Visit.selection? : Visit α → Option (List α)
  | .call _ _ => none
  | .found selection => some selection

/-- The selections found, in order. -/
def selectionsIn (visits : List (Visit α)) : List (List α) :=
  visits.filterMap Visit.selection?

/-- The position behind the last one that leaves enough elements to take `k` in all. -/
def stop (pool : List α) (k : Nat) (taken : List α) : Nat :=
  pool.length + 1 + taken.length - k

mutual

/-- Goes on from a position until `k` elements are taken. There is no result if an element is looked
for behind the end of the list. -/
def from? (pool : List α) (k start : Nat) (taken : List α) : Option (Run α) :=
  if taken.length = k then some ⟨[.call start taken, .found taken], taken⟩
  else do
    let run ← loop? pool k (stop pool k taken) start taken
    return { run with visits := .call start taken :: run.visits }
termination_by (pool.length - start, 1)

/-- Takes each of the elements from a position on, as long as it is before `stop`. -/
def loop? (pool : List α) (k stop i : Nat) (taken : List α) : Option (Run α) :=
  if i < stop then
    if h : i < pool.length then do
      let inner ← from? pool k (i + 1) (taken ++ [pool[i]])
      let rest ← loop? pool k stop (i + 1) inner.taken.dropLast
      return { rest with visits := inner.visits ++ rest.visits }
    else none
  else some ⟨[], taken⟩
termination_by (pool.length - i, 0)

end

end Quorum.Selection.Search
