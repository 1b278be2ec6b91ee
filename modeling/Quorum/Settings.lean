import Quorum.Ballot
import Quorum.Formula.Value
import Quorum.Numeral.Literal
import Quorum.Text.LetterCase

/-!
# Settings

What can be set about a recovery. Settings come from the environment, each from its own
variable, and a text that makes no sense counts as if it were not there.
-/

namespace Quorum

/-- The settings of a recovery, with their defaults. -/
structure Settings where
  exponentLimit : Int := Operation.defaultExponentLimit
  tieRule : String := Ballot.Rule.smallest.name
  logLevel : String := "WARNING"
  deriving DecidableEq, Repr

/-- Variables and their values. -/
abbrev Environment := List (String × List Char)

namespace Environment

/-- The value of a variable, if it is set. -/
def get? (env : Environment) (name : String) : Option (List Char) :=
  (env.find? fun e => e.1 == name).map Prod.snd

end Environment

namespace Settings

/-- The levels by name; only what ranks at least as high is logged. -/
def levels : List (String × Nat) :=
  [("CRITICAL", 50), ("FATAL", 50), ("ERROR", 40), ("WARN", 30), ("WARNING", 30), ("INFO", 20),
    ("DEBUG", 10), ("NOTSET", 0)]

/-- The limit on exponents that a text sets. Settings are read where no limit on digits is lifted. -/
def exponentOf? (s : List Char) : Option Int :=
  (Numeral.boundedLiteral? .standard 10 s).filter (0 ≤ ·)

/-- The tie rule that a text sets. -/
def tieRuleOf? (s : List Char) : Option String :=
  [Ballot.Rule.smallest.name, Ballot.Rule.first.name].find? fun name =>
    name.toList == Text.lower (Text.trim s)

/-- The level that a text sets. -/
def levelOf? (s : List Char) : Option String :=
  (levels.map Prod.fst).find? fun name => name.toList == Text.upper (Text.trim s)

/-- What a variable sets, or the default. -/
def setting {α : Type} (env : Environment) (name : String) (read : List Char → Option α)
    (default : α) : α :=
  ((env.get? name).bind read).getD default

/-- The variable that sets the exponent limit. -/
def exponentVariable : String := "SHARE_RECOVERY_MAX_EXPONENT"

/-- The variable that sets the tie rule. -/
def tieRuleVariable : String := "SHARE_RECOVERY_TIE_BREAK"

/-- The variable that sets the log level. -/
def levelVariable : String := "SHARE_RECOVERY_LOG_LEVEL"

/-- The settings of an environment. -/
def ofEnvironment (env : Environment) : Settings where
  exponentLimit := setting env exponentVariable exponentOf? Operation.defaultExponentLimit
  tieRule := setting env tieRuleVariable tieRuleOf? Ballot.Rule.smallest.name
  logLevel := setting env levelVariable levelOf? "WARNING"

/-- How important an event must be to be logged. -/
def threshold (s : Settings) : Nat :=
  ((levels.find? fun e => e.1 == s.logLevel).map Prod.snd).getD 0

end Settings

end Quorum
