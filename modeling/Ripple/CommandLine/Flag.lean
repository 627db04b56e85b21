import Ripple.Decimal.Reader
import Ripple.Text.Quoted
import Ripple.Time.Duration

/-!
# Ripple.CommandLine.Flag

Named options of a command, and the values they take.
-/

namespace Ripple.CommandLine

/-- What kind of value a flag takes. -/
inductive FlagKind where
  | text
  | integer
  | natural
  | decimal
  /-- On or off; the value may be left out. -/
  | switch
  /-- A span of time. -/
  | span
  deriving DecidableEq, Repr

/-- A named option of a command. -/
structure Flag where
  name : String
  /-- The letter that stands for the name. -/
  letter : Option Char
  kind : FlagKind
  deriving DecidableEq, Repr

/-- The value of a flag. -/
inductive FlagValue where
  | text (s : String)
  | integer (n : Int)
  | natural (n : Nat)
  | decimal (x : Float)
  | switch (b : Bool)
  | span (nanoseconds : Int)

/-- Why a text is no value of a flag. -/
inductive ValueProblem where
  | number (reader : String) (p : Text.NumberProblem)
  | span (p : Duration.Problem)
  deriving DecidableEq, Repr

/-- The message about a text that is no value. -/
def ValueProblem.message (text : String) : ValueProblem → String
  | number reader p => s!"strconv.{reader}: parsing {Text.quote text}: {p.message}"
  | span p => p.message text

/-- The truth value that a word stands for. -/
def readSwitch (s : String) : Except Text.NumberProblem Bool :=
  if ["1", "t", "T", "true", "TRUE", "True"].contains s then .ok true
  else if ["0", "f", "F", "false", "FALSE", "False"].contains s then .ok false
  else .error .malformed

/-- Reads a value. -/
def FlagKind.read (s : String) : FlagKind → Except ValueProblem FlagValue
  | text => .ok (.text s)
  | integer => (FlagValue.integer <$> Text.Integer.read s).mapError (.number "ParseInt")
  | natural => (FlagValue.natural <$> Text.Integer.readNatural s.toList).mapError
      (.number "ParseUint")
  | decimal => (FlagValue.decimal <$> Decimal.read s).mapError (.number "ParseFloat")
  | switch => (FlagValue.switch <$> readSwitch s).mapError (.number "ParseBool")
  | span => (FlagValue.span <$> Duration.parse s).mapError .span

/-- Why flags cannot be read. -/
inductive FlagError where
  | badForm (argument : String)
  | unknown (name : String)
  | unknownLetter (letter : Char) (letters : String)
  | needsValue (name : String)
  | letterNeedsValue (letter : Char)
  | badValue (flag : Flag) (value : String) (problem : ValueProblem)
  deriving DecidableEq, Repr

/-- How a flag is shown. -/
def Flag.label (f : Flag) : String :=
  match f.letter with
  | some c => s!"-{c}, --{f.name}"
  | none => s!"--{f.name}"

/-- The message of an error. -/
def FlagError.message : FlagError → String
  | badForm argument => s!"bad flag syntax: {argument}"
  | unknown name => s!"unknown flag: --{name}"
  | unknownLetter letter letters =>
    s!"unknown shorthand flag: {Text.quoteLetter letter} in -{letters}"
  | needsValue name => s!"flag needs an argument: --{name}"
  | letterNeedsValue letter => s!"flag needs an argument: {Text.quoteLetter letter} in -{letter}"
  | badValue flag value problem =>
    s!"invalid argument {Text.quote value} for {Text.quote flag.label} flag: " ++
      problem.message value

end Ripple.CommandLine
