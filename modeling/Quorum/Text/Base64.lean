/-!
# Bytes in base sixty-four

Four digits write three bytes. Characters that are no digits do not count, and nothing counts behind
the equals signs that fill up the last group.
-/

namespace Quorum.Text.Base64

/-- The value of a digit. -/
def digit? (c : Char) : Option Nat :=
  if 'A' ≤ c && c ≤ 'Z' then some (c.toNat - 'A'.toNat)
  else if 'a' ≤ c && c ≤ 'z' then some (c.toNat - 'a'.toNat + 26)
  else if '0' ≤ c && c ≤ '9' then some (c.toNat - '0'.toNat + 52)
  else if c == '+' then some 62
  else if c == '/' then some 63
  else none

/-- Decodes what follows `count` digits of a group, `pads` equals signs behind them, and the bits
`left` of which no byte has been made. -/
def decodeGroup? (count pads left : Nat) : List Char → Option (List UInt8)
  | [] => if count = 0 then some [] else none
  | '=' :: r =>
    if count < 2 then decodeGroup? count pads left r
    else if 4 ≤ count + (pads + 1) then some []
    else decodeGroup? count (pads + 1) left r
  | c :: r =>
    match digit? c with
    | none => decodeGroup? count pads left r
    | some d =>
      let kept := Nat.pow 4 (3 - count)
      let rest? := decodeGroup? ((count + 1) % 4) 0 (d % kept) r
      if count = 0 then rest?
      else rest?.map ((left * Nat.pow 4 count + d / kept).toUInt8 :: ·)

/-- The bytes that the text writes, unless its last group has been cut short. -/
def decode? (s : List Char) : Option (List UInt8) :=
  decodeGroup? 0 0 0 s

example : decode? "TWFu TQ==".toList = some [0x4d, 0x61, 0x6e, 0x4d] := by decide
example : decode? "TWFuT".toList = none := by decide

end Quorum.Text.Base64
