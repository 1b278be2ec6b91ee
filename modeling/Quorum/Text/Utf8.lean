/-!
# Text in bytes

Reading UTF-8 strictly: no overlong forms, no surrogates, nothing cut short.
-/

namespace Quorum.Text.Utf8

/-- The six bits of a continuation byte. -/
def continuation? (b : UInt8) : Option Nat :=
  if 0x80 ≤ b && b < 0xC0 then some (b.toNat - 0x80) else none

/-- The character of a code point that must not be below `least`. -/
def char? (least code : Nat) : Option Char :=
  if least ≤ code && code.isValidChar then some (Char.ofNat code) else none

/-- The characters that the bytes write, if they are well formed. -/
def decode? : List UInt8 → Option (List Char)
  | [] => some []
  | a :: r =>
    if a < 0x80 then do
      let c ← char? 0 a.toNat
      return c :: (← decode? r)
    else if a < 0xC0 then none
    else if a < 0xE0 then
      match r with
      | b :: r => do
        let b ← continuation? b
        let c ← char? 0x80 ((a.toNat - 0xC0) * 0x40 + b)
        return c :: (← decode? r)
      | _ => none
    else if a < 0xF0 then
      match r with
      | b :: c :: r => do
        let b ← continuation? b
        let c ← continuation? c
        let c ← char? 0x800 (((a.toNat - 0xE0) * 0x40 + b) * 0x40 + c)
        return c :: (← decode? r)
      | _ => none
    else
      match r with
      | b :: c :: d :: r => do
        let b ← continuation? b
        let c ← continuation? c
        let d ← continuation? d
        let c ← char? 0x10000 ((((a.toNat - 0xF0) * 0x40 + b) * 0x40 + c) * 0x40 + d)
        return c :: (← decode? r)
      | _ => none

end Quorum.Text.Utf8
