import Quorum.Calendar
import Quorum.Number.Shortest
import Quorum.Text.Quoted

/-!
# Structured data

What a document holds once it has been read: scalars, lists, and mappings with scalars
as keys. Keys are compared across kinds (`Scalar.same`): a truth value is the number 0
or 1, and a floating-point number the integer that it equals.
-/

namespace Quorum

/-- A value without parts. A text that holds code points that are no characters is kept
apart as `unpaired`. -/
inductive Scalar where
  | null
  | bool (value : Bool)
  | int (value : Int)
  | float (value : Binary64)
  | text (value : List Char)
  | unpaired (codes : List Nat)
  | bytes (value : List UInt8)
  | date (value : Calendar.Date)
  | moment (value : Calendar.Moment)
  deriving DecidableEq, Repr

namespace Scalar

/-- The integer that a number or a truth value is. -/
def integer? : Scalar → Option Int
  | bool b => some (if b then 1 else 0)
  | int v => some v
  | float v => v.integer?
  | _ => none

/-- Whether two scalars are the same key. -/
def same (a b : Scalar) : Bool :=
  match a.integer?, b.integer? with
  | some v, some w => v == w
  | none, none =>
    match a, b with
    | float v, float w => v.same w
    | moment v, moment w => v.same w
    | a, b => a == b
  | _, _ => false

/-- The scalar as a message shows it. -/
def display : Scalar → String
  | null => "None"
  | bool true => "True"
  | bool false => "False"
  | int v => String.ofList (Numeral.decimal v)
  | float v => String.ofList v.display
  | text s => String.ofList (Text.Quoted.encode s)
  | unpaired codes => String.ofList (Text.Quoted.encodeCodes codes)
  | bytes bs => String.ofList (Text.Quoted.encodeBytes bs)
  | date d => d.display
  | moment m => m.display

/-- The text with these code points. -/
def ofCodes (codes : List Nat) : Scalar :=
  if codes.all fun n => n.isValidChar then text (codes.map Char.ofNat) else unpaired codes

end Scalar

/-- A value with its parts. -/
inductive Data where
  | scalar (value : Scalar)
  | list (items : List Data)
  | mapping (entries : List (Scalar × Data))

namespace Data

/-- The entries' value under a text key. -/
def find? (key : String) (entries : List (Scalar × Data)) : Option Data :=
  (entries.find? fun e => e.1 == .text key.toList).map Prod.snd

end Data

end Quorum
