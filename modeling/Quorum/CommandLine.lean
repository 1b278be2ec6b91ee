import Quorum.Bundle.Reading
import Quorum.Recovery

/-!
# The command line

    [--report] [--tie-break RULE] [-v | --verbose] [--] INPUT

Recovers the secret of the bundle in a file and prints it, or a report with `--report`.
What happens depends on the arguments, the environment and what is found at the path, and
on nothing else. What the arguments ask for is left to a reader of arguments (`Reader`), of which
`jobOf?` is the one that runs; so is YAML.
-/

namespace Quorum.CommandLine

/-- What the arguments ask for. -/
structure Request where
  inputs : List (List Char)
  report : Bool
  verbose : Bool
  /-- The tie rule, as it is given last. -/
  tieRule : Option (List Char)
  deriving DecidableEq, Repr

/-- Nothing asked for yet. -/
def Request.none : Request :=
  ⟨[], false, false, Option.none⟩

/-! ## Arguments -/

/-- Letters behind one dash; each must be an option. -/
def readLetters (letters : List Char) (q : Request) : Option Request :=
  if letters.all (· == 'v') then some { q with verbose := true } else none

/-- An argument as the name of an option and the value behind an equals sign. -/
def splitValue (arg : List Char) : List Char × Option (List Char) :=
  match Formula.splitFirst? '=' arg with
  | some (name, value) => (name, some value)
  | none => (arg, none)

/-- An option as it stands in an argument. -/
inductive Mark where
  | flag (set : Request → Request)
  | rule (value : Option (List Char))
  | unknown

/-- The option of an argument. -/
def markOf (arg : List Char) : Mark :=
  let (name, value) := splitValue arg
  if name == "--tie-break".toList then .rule value
  else if value.isNone && name == "--report".toList then .flag fun q => { q with report := true }
  else if value.isNone && name == "--verbose".toList then .flag fun q => { q with verbose := true }
  else .unknown

/-- Whether an argument stands for options; a dash alone does not. -/
def isOption (arg : List Char) : Bool :=
  arg.head? == some '-' && 1 < arg.length

/-- Reads the arguments from left to right. -/
def readArguments : List (List Char) → Request → Option Request
  | [], q => some q
  | arg :: r, q =>
    if arg == ['-', '-'] then some { q with inputs := q.inputs ++ r }
    else if !isOption arg then readArguments r { q with inputs := q.inputs ++ [arg] }
    else match markOf arg with
      | .flag set => readArguments r (set q)
      | .rule (some value) => readArguments r { q with tieRule := some value }
      | .rule none =>
        match r with
        | value :: r => readArguments r { q with tieRule := some value }
        | [] => none
      | .unknown =>
        match arg with
        | '-' :: '-' :: _ => none
        | _ :: letters =>
          match readLetters letters q with
          | some q => readArguments r q
          | none => none
        | [] => none

/-- A run that has been asked for correctly. -/
structure Job where
  input : List Char
  report : Bool
  verbose : Bool
  tieRule : Option Ballot.Rule
  deriving DecidableEq, Repr

/-- A reader of arguments: the job that they describe, if they are right. -/
abbrev Reader := List (List Char) → Option Job

/-- The job that the arguments describe, if they are right: one input, and a known tie rule. -/
def jobOf? : Reader := fun args => do
  let q ← readArguments args .none
  let rule ← match q.tieRule with
    | some name => some <$> [Ballot.Rule.smallest, Ballot.Rule.first].find? (·.name.toList == name)
    | none => pure none
  match q.inputs with
  | [input] => return ⟨input, q.report, q.verbose, rule⟩
  | _ => none

/-! ## Runs -/

/-- What a run leaves behind. -/
structure Response where
  exit : Nat
  output : String
  errors : String
  deriving DecidableEq, Repr

/-- Lines one after the other. -/
def lines (ls : List String) : String :=
  String.join (ls.map (· ++ "\n"))

/-- The report of a recovery. -/
def reportLines (r : Recovery) : List String :=
  [s!"secret: {r.secret}", s!"threshold: {r.threshold}", s!"shares: {r.shares}",
    s!"combinations: {r.combinations}", s!"agreement: {r.agreement}/{r.combinations}"] ++
  (if r.tied then ["warning: plurality is tied, winner chosen by tie-break rule"] else []) ++
  ["suspect shares: " ++
    if r.suspects.isEmpty then "none" else String.intercalate ", " (r.suspects.map toString)]

/-- The settings of a job in an environment. -/
def settingsOf (job : Job) (env : Environment) : Settings :=
  let settings := Settings.ofEnvironment env
  match job.tieRule with
  | some rule => { settings with tieRule := rule.name }
  | none => settings

/-- Loads a bundle and recovers its secret, with the limit on digits lifted. -/
def recover (yaml : Yaml.Loader) (job : Job) (settings : Settings) (found : Found) :
    Journal Recovery := do
  let bundle ← Bundle.load yaml .lifted (Path.tidy job.input) found
  Recovery.ofBundle settings bundle

/-- The lines of the events that are important enough. -/
def logLines (threshold : Nat) (events : List Event) : List String :=
  (events.filter fun e => threshold ≤ e.level.rank).map Event.line

/-- The response of a job whose input is a file. A fault that is none of the recovery itself
has no response. -/
def run (yaml : Yaml.Loader) (job : Job) (env : Environment) (found : Found) :
    Except Fault Response :=
  let settings := settingsOf job env
  let threshold := if job.verbose then Level.debug.rank else settings.threshold
  let journal := recover yaml job settings found
  let log := logLines threshold journal.events
  match journal.outcome with
  | .ok r =>
    let shown := if job.report then reportLines r else [toString r.secret]
    .ok ⟨0, lines shown, lines log⟩
  | .error e =>
    match e.kind? with
    | some kind => .ok ⟨1, "", lines (log ++ [s!"Error: {kind}: {e.message}"])⟩
    | none => .error e

/-- Whether an input is a file. -/
def isFile : Found → Bool
  | .file _ => true
  | _ => false

/-- The response to a command line, if its arguments are right and its input is a file. -/
def respond (read : Reader) (yaml : Yaml.Loader) (args : List (List Char)) (env : Environment)
    (find : List Char → Found) : Option (Except Fault Response) := do
  let job ← read args
  let found := find job.input
  if isFile found then some (run yaml job env found) else none

end Quorum.CommandLine
