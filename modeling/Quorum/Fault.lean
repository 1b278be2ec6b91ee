import Quorum.Data
import Quorum.Formula.Malformation
import Quorum.Numeral.DigitLimit
import Quorum.Text.Raw

/-!
# Faults

Everything that can go wrong between a document and a recovered secret, as causes; the
wording of each is given once, by `Fault.message`. A fault of the recovery itself has a
`Fault.kind?`; a value that an operation does not take (`Refusal`) has none. Where a message is put
together under a limit on digits, a number in it that is too long takes the fault's place
(`Fault.within`).
-/

namespace Quorum

/-- What is wrong with a document. -/
inductive Defect where
  | notMapping
  | noKeys
  /-- The count of this name in the keys section is no integer. -/
  | countNotInteger (name : String)
  | duplicateKey (key : Scalar)
  | idNotPositive (id : Int)
  | entryNotMapping (id : Int)
  | baseMissing (id : Int)
  /-- The base, of the share if one is named, is no integer. -/
  | baseNotInteger (id : Option Int)
  | baseOutOfRange (id : Option Int) (base : Int)
  | valueMissing (id : Int)
  | valueNotText (id : Int)
  /-- A JSON text is broken off at this place; both count from one. -/
  | jsonSyntax (line column : Nat)
  /-- A YAML text is broken off, at this line if it is known. -/
  | yamlSyntax (line : Option Nat)
  | unreadable (path : RawText) (reason : String)
  deriving DecidableEq, Repr

/-- A value that an operation does not take. -/
inductive Refusal where
  | negativeSize
  | negativeCount
  | noPoints
  | repeatedAbscissa
  | unknownRule (name : String)
  | mislabelledShare (label id : Int)
  | unknownFormat (name : String)
  | baseOutOfRange
  | pathHoldsNul
  /-- A number has too many digits to be read, if they are said to be so many, or to be written. -/
  | tooManyDigits (most : Nat) (given : Option Nat)
  /-- An entry of what should be a mapping is a single character. -/
  | notPair
  /-- An entry of what should be a mapping is a node of this kind. -/
  | indivisible (kind : String)
  /-- A scalar that is marked as an integer and cannot be read in the base. -/
  | notInteger (base : Nat) (codes : List Nat)
  | notFloat (text : List Char)
  /-- A scalar that is marked as a number and has no characters. -/
  | noDigits
  | notTruth (word : List Char)
  | notTime
  | notCharacter
  | calendar (flaw : Calendar.Flaw)
  deriving DecidableEq, Repr

/-- Why an operation gives no answer. -/
inductive Fault where
  /-- The value, of the share if one is named, cannot be read. -/
  | malformed (id : Option Int) (reason : Malformation)
  | duplicateShare (id : Int)
  | insufficientShares (available : Nat) (threshold : Int)
  | noCandidates
  /-- The threshold is below one, or above the total if that is known. -/
  | invalidThreshold (threshold : Int) (total : Option Int)
  | invalidDocument (defect : Defect)
  | refused (refusal : Refusal)
  /-- A file that is no text. -/
  | undecodable
  /-- A path that no file can have, for it cannot be written in bytes. -/
  | unencodable
  deriving DecidableEq, Repr

/-- Outcomes with comparable faults and results are comparable. -/
instance decidableEqOutcome {ε α : Type} [DecidableEq ε] [DecidableEq α] :
    DecidableEq (Except ε α)
  | .ok a, .ok b =>
    if h : a = b then isTrue (h ▸ rfl) else isFalse fun e => h (Except.ok.inj e)
  | .error a, .error b =>
    if h : a = b then isTrue (h ▸ rfl) else isFalse fun e => h (Except.error.inj e)
  | .ok _, .error _ => isFalse nofun
  | .error _, .ok _ => isFalse nofun

/-- The text, said of the share if one is named. -/
def aboutShare (id : Option Int) (text : String) : String :=
  match id with
  | some id => s!"share {id}: {text}"
  | none => text

namespace Defect

/-- The defect in words. -/
def message : Defect → String
  | notMapping => "document must be a mapping"
  | noKeys => "document has no 'keys' section"
  | countNotInteger name => s!"'keys.{name}' must be an integer"
  | duplicateKey key => s!"duplicate key {key.display}"
  | idNotPositive id => s!"share ids must be positive, got {id}"
  | entryNotMapping id => aboutShare id "entry must be a mapping"
  | baseMissing id => aboutShare id "'base' is missing"
  | baseNotInteger id => aboutShare id "base must be an integer"
  | baseOutOfRange id base => aboutShare id s!"base must be between 2 and 36, got {base}"
  | valueMissing id => aboutShare id "'value' is missing"
  | valueNotText id => aboutShare id "'value' must be a string"
  | jsonSyntax line column => s!"invalid JSON at line {line}, column {column}"
  | yamlSyntax (some line) => s!"invalid YAML at line {line}"
  | yamlSyntax none => "invalid YAML"
  | unreadable path reason => s!"cannot read {String.ofList path.chars}: {reason}"

/-- The numbers that the message shows. -/
def numbers : Defect → List Int
  | idNotPositive id | entryNotMapping id | baseMissing id | valueMissing id | valueNotText id => [id]
  | baseNotInteger id => id.toList
  | baseOutOfRange id base => id.toList ++ [base]
  | duplicateKey (.int v) => [v]
  | jsonSyntax line column => [line, column]
  | yamlSyntax (some line) => [line]
  | _ => []

end Defect

namespace Refusal

/-- Code points between quotes, cut to two hundred characters. -/
def excerpt (codes : List Nat) : String :=
  String.ofList ((Text.Quoted.encodeCodes codes).take 200)

/-- The refusal in words. -/
def message : Refusal → String
  | negativeSize => "k must be non-negative"
  | negativeCount => "n and k must be non-negative"
  | noPoints => "at least one point is required"
  | repeatedAbscissa => "points must have distinct x values"
  | unknownRule name => s!"unknown tie-break rule {String.ofList (Text.Quoted.encode name.toList)}"
  | mislabelledShare label id => s!"share keyed {label} has x={id}"
  | unknownFormat name =>
    s!"unsupported document format {String.ofList (Text.Quoted.encode name.toList)}"
  | baseOutOfRange => "int() base must be >= 2 and <= 36, or 0"
  | pathHoldsNul => "embedded null byte"
  | tooManyDigits most (some given) =>
    s!"Exceeds the limit ({most} digits) for integer string conversion: value has {given} digits; " ++
      "use sys.set_int_max_str_digits() to increase the limit"
  | tooManyDigits most none =>
    s!"Exceeds the limit ({most} digits) for integer string conversion; " ++
      "use sys.set_int_max_str_digits() to increase the limit"
  | notPair => "not enough values to unpack (expected 2, got 1)"
  | indivisible kind => s!"cannot unpack non-iterable {kind} object"
  | notInteger base codes => s!"invalid literal for int() with base {base}: {excerpt codes}"
  | notFloat text =>
    s!"could not convert string to float: {String.ofList (Text.Quoted.encode text)}"
  | noDigits => "string index out of range"
  | notTruth word => String.ofList (Text.Quoted.encode word)
  | notTime => "'NoneType' object has no attribute 'groupdict'"
  | notCharacter => "chr() arg not in range(0x110000)"
  | calendar flaw => flaw.message

end Refusal

namespace Fault

/-- The kind of a fault of the recovery. -/
def kind? : Fault → Option String
  | malformed .. => some "MalformedExpression"
  | duplicateShare _ => some "DuplicateShareId"
  | insufficientShares .. => some "InsufficientShares"
  | noCandidates => some "NoCandidates"
  | invalidThreshold .. => some "InvalidThreshold"
  | invalidDocument _ => some "InvalidDocument"
  | refused _ => none
  | undecodable => none
  | unencodable => none

/-- The fault in words. -/
def message : Fault → String
  | malformed id reason => aboutShare id reason.message
  | duplicateShare id => s!"share id {id} appears more than once"
  | insufficientShares available threshold =>
    s!"{available} share(s) available, threshold is {threshold}"
  | noCandidates => "no candidate secrets to aggregate"
  | invalidThreshold threshold none => s!"threshold must be at least 1, got {threshold}"
  | invalidThreshold threshold (some total) =>
    s!"threshold must satisfy 1 <= k <= n, got k={threshold}, n={total}"
  | invalidDocument defect => defect.message
  | refused refusal => refusal.message
  | undecodable => "the file is no text"
  | unencodable => "the path cannot be encoded"

/-- The numbers that the message shows. Of the refusals only that of a label shows any that have been
handed over. -/
def numbers : Fault → List Int
  | malformed id reason => id.toList ++ reason.numbers
  | duplicateShare id => [id]
  | insufficientShares available threshold => [(available : Int), threshold]
  | invalidThreshold threshold total => threshold :: total.toList
  | invalidDocument defect => defect.numbers
  | refused (.mislabelledShare label id) => [label, id]
  | refused _ | noCandidates | undecodable | unencodable => []

/-- What comes of a fault where its message is put together under the limit: a number that is too
long to be written is refused instead. -/
def within (digits : DigitLimit) (e : Fault) : Fault :=
  match e.numbers.findSome? fun v => digits.exceeded? (Numeral.digitCount v) with
  | some most => .refused (.tooManyDigits most none)
  | none => e

end Fault

namespace DigitLimit

/-- So many digits must not be too many to be read. -/
def require (digits : DigitLimit) (count : Nat) : Except Fault Unit :=
  match digits.exceeded? count with
  | some m => .error (.refused (.tooManyDigits m (some count)))
  | none => .ok ()

/-- The number in decimal notation, if it is not too long to be written. -/
def write (digits : DigitLimit) (v : Int) : Except Fault (List Char) :=
  match digits.exceeded? (Numeral.digitCount v) with
  | some m => .error (.refused (.tooManyDigits m none))
  | none => .ok (Numeral.decimal v)

end DigitLimit

end Quorum
