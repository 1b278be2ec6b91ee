import Quorum.Bundle.Basic
import Quorum.Json.Assembly
import Quorum.Path
import Quorum.Text.LetterCase
import Quorum.Text.Position
import Quorum.Text.Utf8
import Quorum.Yaml.Loading

/-!
# Reading bundles

A bundle is written as JSON or as YAML; for a file its name tells which. Two entries with
the same key are refused wherever they stand, so that no share is lost unseen. A text is read with
the limit on digits lifted, but what is wrong with it is put into words under the limit of the
caller. YAML is left to a reader of its own (`Yaml.Loader`).
-/

namespace Quorum

/-- How a document is written. -/
inductive Format where
  | json | yaml
  deriving DecidableEq, Repr

namespace Format

def name : Format → String
  | json => "json"
  | yaml => "yaml"

/-- The format of a name. -/
def ofName (name : String) : Except Fault Format :=
  if name = json.name then .ok json
  else if name = yaml.name then .ok yaml
  else .error (.refused (.unknownFormat name))

/-- The format of a file: YAML for the endings that say so, in letters of any case. -/
def ofPath (path : List Char) : Format :=
  let written := Text.lower (Path.ending path)
  if written == ".yaml".toList || written == ".yml".toList then yaml else json

end Format

namespace Bundle

/-- The fault of a text that is no JSON document. -/
def jsonFault (digits : DigitLimit) (text : List Char) : Json.Stop → Fault
  | .misplaced rest =>
    let place := Text.Position.ofRest text rest
    .invalidDocument (.jsonSyntax place.line place.column)
  | .repeated key => repeatedKey digits key

/-- The fault of a text at which a reader of YAML stops. -/
def stopFault : Yaml.Stop → Fault
  | .unprintable => .invalidDocument (.yamlSyntax none)
  | .misplaced line => .invalidDocument (.yamlSyntax (some (line + 1)))
  | .refused refusal => .refused refusal

/-- The fault of a text that is no YAML document. -/
def yamlFault (digits : DigitLimit) : Yaml.Break → Fault
  | .repeated key => repeatedKey digits key
  | .stopped stop => stopFault stop

/-- The data of a text. -/
def readData (yaml : Yaml.Loader) (digits : DigitLimit) (format : Format) (text : List Char) :
    Except Fault Data :=
  match format with
  | .json => (Json.read text).mapError fun stop => (jsonFault digits text stop).within digits
  | .yaml => (yaml text).check.mapError fun stop => (yamlFault digits stop).within digits

/-- The bundle that a text writes. -/
def read (yaml : Yaml.Loader) (digits : DigitLimit) (format : Format) (text : List Char) :
    Journal Bundle := do
  let data ← readData yaml digits format text
  ofData .lifted data

/-- Line breaks of any kind as line feeds. -/
def unifyBreaks : List Char → List Char
  | [] => []
  | '\r' :: '\n' :: r => '\n' :: unifyBreaks r
  | '\r' :: r => '\n' :: unifyBreaks r
  | c :: r => c :: unifyBreaks r

/-- Why nothing can be read at a path. -/
def reasonUnreadable : Found → String
  | .missing => "No such file or directory"
  | .belowFile => "Not a directory"
  | .tooLong => "File name too long"
  | .directory => "Is a directory"
  | .file _ => ""

/-- The text at a path. -/
def textOf (path : RawText) (found : Found) : Except Fault (List Char) :=
  if !path.isEncodable then .error .unencodable
  else if path.chars.contains '\x00' then .error (.refused .pathHoldsNul)
  else match found with
    | .file bytes =>
      match Text.Utf8.decode? bytes with
      | some text => .ok (unifyBreaks text)
      | none => .error .undecodable
    | found => .error (.invalidDocument (.unreadable path (reasonUnreadable found)))

/-- The bundle in a file, from what is found at its path. -/
def load (yaml : Yaml.Loader) (digits : DigitLimit) (path : RawText) (found : Found) :
    Journal Bundle := do
  let text ← textOf path found
  read yaml digits (Format.ofPath path.chars) text

end Bundle

end Quorum
