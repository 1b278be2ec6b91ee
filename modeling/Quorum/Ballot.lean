import Quorum.Journal

/-!
# Plurality votes

Candidates are counted in the order in which they first occur, and the one with the most
votes wins; a tie is broken by a rule.

* `count_total`: every vote is counted once.
-/

namespace Quorum.Ballot

/-- Candidates with their votes, in the order of the first occurrences. -/
abbrev Tally := List (Int × Int)

/-- One more vote for a candidate. -/
def addVote (v : Int) : Tally → Tally
  | [] => [(v, 1)]
  | (w, n) :: r => if w = v then (w, n + 1) :: r else (w, n) :: addVote v r

/-- The votes for each candidate. -/
def count (candidates : List Int) : Tally :=
  candidates.foldl (fun t v => addVote v t) []

/-- The sum of all votes. -/
def total (t : Tally) : Int :=
  (t.map Prod.snd).foldl (· + ·) 0

/-- The most votes that a candidate of the tally has. -/
def most : Tally → Int
  | [] => 0
  | [(_, n)] => n
  | (_, n) :: r => max n (most r)

/-- The candidates with the most votes, in order. -/
def leaders (t : Tally) : List Int :=
  (t.filter fun e => e.2 == most t).map Prod.fst

/-- How a tie is broken: for the smallest leader, or for the one counted first. -/
inductive Rule where
  | smallest | first
  deriving DecidableEq, Repr

namespace Rule

def name : Rule → String
  | smallest => "smallest"
  | first => "first"

/-- The rule of a name; without a name it is the smallest leader. -/
def ofName (name : String) : Except Fault Rule :=
  if name = "" || name = Rule.smallest.name then .ok smallest
  else if name = Rule.first.name then .ok first
  else .error (.refused (.unknownRule name))

/-- The leader that the rule picks from a nonempty list. -/
def pick (rule : Rule) : List Int → Option Int
  | [] => none
  | v :: r => some <| match rule with
    | smallest => r.foldl min v
    | first => v

end Rule

/-- The outcome of a vote. -/
structure Election where
  winner : Int
  votes : Int
  tied : Bool
  total : Int
  deriving DecidableEq, Repr

/-- The winner of a tally. -/
def elect (t : Tally) (rule : String) : Journal Election := do
  if t.isEmpty then throw .noCandidates
  let rule ← Rule.ofName rule
  let ahead := leaders t
  match rule.pick ahead with
  | none => throw .noCandidates
  | some winner =>
    let tied := 1 < ahead.length
    if tied then
      Journal.report (.tieBroken ahead.length (most t) rule.name)
    return ⟨winner, most t, tied, total t⟩

/-- The candidate that occurs most often. -/
def plurality (candidates : List Int) (rule : String) : Except Fault Int :=
  Election.winner <$> (elect (count candidates) rule).outcome

theorem foldl_add (a : Int) (ns : List Int) : ns.foldl (· + ·) a = a + ns.foldl (· + ·) 0 := by
  induction ns generalizing a with
  | nil => simp
  | cons n r ih => rw [List.foldl_cons, ih, List.foldl_cons, ih (0 + n)]; omega

theorem total_cons (e : Int × Int) (t : Tally) : total (e :: t) = e.2 + total t := by
  rw [total, List.map_cons, List.foldl_cons, foldl_add, Int.zero_add]
  rfl

theorem total_addVote (v : Int) (t : Tally) : total (addVote v t) = total t + 1 := by
  induction t with
  | nil => rfl
  | cons e r ih =>
    obtain ⟨w, n⟩ := e
    rw [addVote]
    split
    · simp only [total_cons]; omega
    · simp only [total_cons, ih]; omega

/-- Every vote is counted once. -/
theorem count_total (candidates : List Int) : total (count candidates) = candidates.length := by
  suffices h : ∀ t, total (candidates.foldl (fun t v => addVote v t) t) =
      total t + candidates.length by
    have := h []
    simpa [count, total] using this
  induction candidates with
  | nil => simp
  | cons v r ih =>
    intro t
    rw [List.foldl_cons, ih, total_addVote, List.length_cons]
    omega

end Quorum.Ballot
