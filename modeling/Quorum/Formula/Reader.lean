import Quorum.Fault

/-!
# Reading formulas

`Formula.read` tells which of the three shapes a text has. A parenthesis decides for
a call, so all that can be wrong with a call is reported as such; operands are kept
as trimmed texts and not looked at. `Formula.readWithin` is the same under a limit on digits,
which concerns numbers alone.
-/

namespace Quorum.Formula

open Quorum.Text (trim)

/-- The text before and after the first `c`. -/
def splitFirst? (c : Char) : List Char → Option (List Char × List Char)
  | [] => none
  | d :: r =>
    if d == c then some ([], r)
    else (splitFirst? c r).map fun (before, after) => (d :: before, after)

/-- The text without the closing parenthesis at its end. -/
def dropClosing? (s : List Char) : Option (List Char) :=
  if s.getLast? == some ')' then some s.dropLast else none

/-- The operands between the parentheses of a call. -/
def readOperands (body : List Char) : List (List Char) :=
  if (trim body).isEmpty then [] else (Text.splitAll ',' body).map trim

/-- Reads a call from the texts before and after its opening parenthesis. -/
def readCall (name after : List Char) : Except Malformation Formula :=
  match Operation.ofName? (trim name) with
  | none => .error .unknownOperation
  | some f =>
    match dropClosing? after with
    | none => .error .unbalanced
    | some body =>
      if body.contains '(' || body.contains ')' then .error .nested
      else .ok (.call f (readOperands body))

/-- Reads a text that is neither blank nor a number. -/
def readCompound (t : List Char) : Except Malformation Formula :=
  match splitFirst? '(' t with
  | some (name, after) => readCall name after
  | none =>
    if t.contains ')' then .error .unbalanced
    else if t.contains variableLetter then .ok (.template t)
    else .error .formless

/-- Reads a formula; blanks around it do not count. -/
def read (s : List Char) : Except Malformation Formula :=
  let t := trim s
  if t.isEmpty then .error .blank
  else match Numeral.integer? t with
    | some v => .ok (.literal v)
    | none => readCompound t

/-- Reads a formula where the limit on digits is not lifted: a number must not have more of them. -/
def readWithin (digits : DigitLimit) (s : List Char) : Except Fault Formula :=
  match read s with
  | .ok (.literal v) => do
    digits.require (Numeral.splitSign (trim s)).2.length
    return .literal v
  | r => r.mapError (.malformed none)

/-- What stands before the first `c`, it and what stands after it make up the text. -/
theorem splitFirst?_eq_some {c : Char} {s before after : List Char}
    (h : splitFirst? c s = some (before, after)) : s = before ++ c :: after ∧ c ∉ before := by
  induction s generalizing before with
  | nil => simp [splitFirst?] at h
  | cons d r ih =>
    rw [splitFirst?] at h
    split at h
    · simp_all
    · rename_i hd
      obtain ⟨⟨b, a⟩, hr, e⟩ := Option.map_eq_some_iff.1 h
      simp only [Prod.mk.injEq] at e
      obtain ⟨rfl, rfl⟩ := e
      obtain ⟨rfl, hb⟩ := ih hr
      have hd : c ≠ d := fun e => hd (by simp [e])
      simp [hd, hb]

theorem splitFirst?_eq_none_iff {c : Char} {s : List Char} :
    splitFirst? c s = none ↔ c ∉ s := by
  induction s with
  | nil => simp [splitFirst?]
  | cons d r ih =>
    rw [splitFirst?]
    split
    · simp_all
    · rename_i hd
      have hd : c ≠ d := fun e => hd (by simp [e])
      simp [hd, ih]

end Quorum.Formula
