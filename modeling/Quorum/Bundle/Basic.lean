import Quorum.Ascending
import Quorum.Journal
import Quorum.Share.Basic

/-!
# Bundles of shares

A bundle is what a document hands out: the shares, how many there are meant to be, and
how many of them it takes to recover the secret. `Bundle.ofData` reads it from structured
data of the form

    keys: (n: 4, k: 3), 1: (base: 10, value: 4), 2: (base: 2, value: 111), …

Entries whose key is no number are passed over. Integers may be given as decimal numerals
throughout, and a share's value by an integer. Numerals are read, values are written and faults are
put into words under a limit on digits.
-/

namespace Quorum

/-- Shares by ascending number, of which any `threshold` recover the secret. -/
structure Bundle where
  threshold : Int
  total : Int
  shares : List Share
  deriving DecidableEq, Repr

namespace Bundle

/-- The integer that a scalar denotes: itself, or what its padded decimal digits write. -/
def integerOf? : Scalar → Option Int
  | .int v => some v
  | .text s => (Numeral.paddedNatural? s).map fun (n : Nat) => (n : Int)
  | _ => none

/-- Reads the integer that a scalar denotes, if it denotes one. -/
def readInteger (digits : DigitLimit) (s : Scalar) : Except Fault (Option Int) :=
  match s, integerOf? s with
  | .text t, some v => do
    digits.require (Text.trim t).length
    return some v
  | _, v => .ok v

/-- Reads the integer that a value denotes, if it denotes one. -/
def readIntegerIn (digits : DigitLimit) : Data → Except Fault (Option Int)
  | .scalar s => readInteger digits s
  | _ => .ok none

/-- The fault of a key that occurs twice in a mapping. -/
def repeatedKey (digits : DigitLimit) (key : Scalar) : Fault :=
  match readInteger digits key with
  | .ok (some id) => .duplicateShare id
  | .ok none => .invalidDocument (.duplicateKey key)
  | .error e => e

/-- The base that a value denotes, named as the share's if one is given. -/
def readBase (digits : DigitLimit) (id : Option Int) (v : Data) : Except Fault Int := do
  match ← readIntegerIn digits v with
  | none => .error (.invalidDocument (.baseNotInteger id))
  | some base =>
    if 2 ≤ base && base ≤ 36 then .ok base
    else .error (.invalidDocument (.baseOutOfRange id base))

/-- The count of a name in the keys section. -/
def readCount (digits : DigitLimit) (keys : List (Scalar × Data)) (name : String) :
    Except Fault Int := do
  match ← readIntegerIn digits ((Data.find? name keys).getD (.scalar .null)) with
  | some v => .ok v
  | none => .error (.invalidDocument (.countNotInteger name))

/-- The text of a share's value. -/
def readValue (digits : DigitLimit) (id : Int) (entry : List (Scalar × Data)) :
    Except Fault RawText :=
  match Data.find? "value" entry with
  | none | some (.scalar .null) | some (.scalar (.bool _)) =>
    .error (.invalidDocument (.valueMissing id))
  | some (.scalar (.int v)) => .text <$> digits.write v
  | some (.scalar (.text s)) => .ok (.text s)
  | some (.scalar (.unpaired codes)) => .ok (.unpaired codes)
  | some _ => .error (.invalidDocument (.valueNotText id))

/-- The share of a number from its entry. -/
def readShare (digits : DigitLimit) (id : Int) : Data → Except Fault Share
  | .mapping entry =>
    match Data.find? "base" entry with
    | none => .error (.invalidDocument (.baseMissing id))
    | some v => do
      let base ← readBase digits id v
      let value ← readValue digits id entry
      return ⟨id, base, value⟩
  | _ => .error (.invalidDocument (.entryNotMapping id))

/-- The key of the section that holds the counts. -/
def keysSection : Scalar := .text "keys".toList

/-- The shares of a document's entries, in order; `seen` are the numbers of those before. -/
def readShares (digits : DigitLimit) (total : Int) (seen : List Int) :
    List (Scalar × Data) → Journal (List Share)
  | [] => pure []
  | (key, entry) :: r =>
    if key = keysSection then readShares digits total seen r
    else do
      match ← readInteger digits key with
      | none => do
        Journal.report (.keyIgnored key)
        readShares digits total seen r
      | some id => do
        if id < 1 then throw (.invalidDocument (.idNotPositive id))
        if total < id then Journal.report (.idOutsideRange id total)
        if seen.contains id then throw (.duplicateShare id)
        let share ← readShare digits id entry
        let shares ← readShares digits total (id :: seen) r
        return share :: shares

/-- Shares by ascending number. -/
def byNumber (shares : List Share) : List Share :=
  sortBy Share.id shares

/-- The bundle that structured data denotes, or the fault that is found in it. -/
def readBundle (digits : DigitLimit) : Data → Journal Bundle
  | .mapping entries =>
    match Data.find? "keys" entries with
    | some (.mapping keys) => do
      let total ← readCount digits keys "n"
      let threshold ← readCount digits keys "k"
      if threshold < 1 || total < threshold then throw (.invalidThreshold threshold (some total))
      let shares ← readShares digits total [] entries
      Journal.report (.documentLoaded shares.length total threshold)
      return ⟨threshold, total, byNumber shares⟩
    | _ => throw (.invalidDocument .noKeys)
  | _ => throw (.invalidDocument .notMapping)

/-- The bundle that structured data denotes, under a limit on digits. -/
def ofData (digits : DigitLimit) (d : Data) : Journal Bundle :=
  (readBundle digits d).within digits

end Bundle

end Quorum
