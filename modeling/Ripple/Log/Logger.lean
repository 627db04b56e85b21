import Ripple.Failure
import Ripple.Json.Basic
import Ripple.Log.Level

/-!
# Ripple.Log.Logger

A logger turns messages with attributes into lines, as text or as JSON, and drops those below its
level.
-/

namespace Ripple.Log

/-- How lines are written. -/
inductive Format where
  | text | json
  deriving DecidableEq, Repr

/-- What is logged, and how. -/
structure Logger where
  level : Level
  format : Format
  deriving DecidableEq, Repr

/-- A message with its attributes. -/
structure Record where
  level : Level
  message : String
  attributes : List (String × String)
  deriving DecidableEq, Repr

/-- Arguments in pairs of name and value; one that is left over gets a name of its own. -/
def pairs : List String → List (String × String)
  | k :: v :: rest => (k, v) :: pairs rest
  | [v] => [("!BADKEY", v)]
  | [] => []

/-- The name of a record's parts in their order. -/
def Record.fields (r : Record) : List (String × String) :=
  [("level", r.level.render), ("msg", r.message)] ++ r.attributes

/-- Whether a character makes a text need quotes. -/
def needsQuotes (c : Char) : Bool :=
  if c.toNat < 0x80 then c.toNat ≤ 0x20 || c == '=' || c == '"'
  else c == '�' || Text.isBlankChar c || !Text.isPrintable c

/-- A text, in quotes if it is empty or could be misread. -/
def word (s : String) : String :=
  if s = "" || s.toList.any needsQuotes then Text.quote s else s

/-- A name and a value on a line of text. -/
def textField (f : String × String) : String := word f.1 ++ "=" ++ word f.2

/-- A name and a value on a line of JSON, where markup stays as it is. -/
def jsonField (f : String × String) : String :=
  Json.quoteWith ⟨false, false⟩ f.1 ++ ":" ++ Json.quoteWith ⟨false, false⟩ f.2

/-- A record as a line. -/
def Record.line (format : Format) (r : Record) : String :=
  match format with
  | .text => Text.join " " (r.fields.map textField) ++ "\n"
  | .json => "\x7b" ++ Text.join "," (r.fields.map jsonField) ++ "\x7d\n"

namespace Logger

/-- Whether messages of a level are logged. -/
def enabled (l : Logger) (level : Level) : Bool := decide (l.level ≤ level)

/-- What a logger writes for some messages. -/
def output (l : Logger) (records : List Record) : String :=
  String.join ((records.filter fun r => l.enabled r.level).map (·.line l.format))

/-- Why there is no logger. -/
inductive Problem where
  | badLevel (text : String) (p : Level.Problem)
  | badFormat (text : String)
  deriving DecidableEq, Repr

/-- The failure that a problem is reported as. -/
def Problem.toFailure : Problem → Failure
  | badLevel text p =>
    .within ("invalid log level " ++ Text.quote text)
      (.within ("slog: level string " ++ Text.quote (Text.trim text)) (.ofText p.message))
  | badFormat text => .ofText ("invalid log format " ++ Text.quote text)

/-- The format with a name; none at all is text. -/
def format? : String → Option Format
  | "" | "text" => some .text
  | "json" => some .json
  | _ => none

/-- The logger for the names of a level and a format. -/
def new (level format : String) : Except Problem Logger :=
  match Level.parse (Text.trim level) with
  | .error p => .error (.badLevel level p)
  | .ok l =>
    match format? format with
    | some f => .ok ⟨l, f⟩
    | none => .error (.badFormat format)

end Logger

end Ripple.Log
