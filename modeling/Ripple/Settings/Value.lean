import Ripple.Decimal.Reader
import Ripple.Json.Reader
import Ripple.Text.Integer
import Ripple.Time.Stamp
import Ripple.Word

/-!
# Ripple.Settings.Value

The values that a settings file can hold, and what an unquoted word in it stands for.
-/

namespace Ripple.Settings

/-- A value of a settings file. -/
inductive Value where
  | null
  | bool (b : Bool)
  | int (n : Int)
  | float (x : Float)
  | text (s : String)
  /-- A day or a time, which no setting has as its value. -/
  | time
  | list (items : List Value)
  | map (entries : List (String × Value))
  deriving Inhabited

namespace Value

/-- The words with a fixed meaning. -/
def ofWord? (s : String) : Option Value :=
  if ["", "~", "null", "Null", "NULL"].contains s then some .null
  else if ["true", "True", "TRUE"].contains s then some (.bool true)
  else if ["false", "False", "FALSE"].contains s then some (.bool false)
  else if [".nan", ".NaN", ".NAN"].contains s then some (.float (0 / 0))
  else if [".inf", ".Inf", ".INF", "+.inf", "+.Inf", "+.INF"].contains s then some (.float (1 / 0))
  else if ["-.inf", "-.Inf", "-.INF"].contains s then some (.float (-1 / 0))
  else none

/-- A finite decimal. -/
def ofDecimal? (s : String) : Option Value :=
  match Decimal.parse? s with
  | some x => if x.isFinite then some (.float x) else none
  | none => none

/-- A number: a whole one if it fits 64 bits, else a decimal.  Underscores are passed over. -/
def ofNumber? (s : String) : Option Value :=
  let plain := String.ofList (s.toList.filter (· != '_'))
  match Text.Integer.parse? plain with
  | some n =>
    if Text.Integer.fits n || (0 ≤ n && n < Word.count && !Text.hasPrefix plain "+") then
      some (.int n)
    else ofDecimal? plain
  | none => ofDecimal? plain

/-- The value of an unquoted word: a fixed word, a time if times are looked for, a number, or else a
text. -/
def ofBare (timed : Bool) (s : String) : Value :=
  match ofWord? s with
  | some v => v
  | none =>
    match s.toList.head? with
    | some '.' =>
      match Decimal.read s with
      | .ok x => .float x
      | .error _ => .text s
    | some c =>
      if c.isDigit || c == '+' || c == '-' then
        if timed && Stamp.isLoose s then .time else (ofNumber? s).getD (.text s)
      else .text s
    | none => .null

/-- The value of an unquoted word. -/
def ofPlain (s : String) : Value := ofBare true s

/-- The value of an unquoted word where a time is not asked for. -/
def ofUntimed (s : String) : Value := ofBare false s

/-- Whether there is no value. -/
def isNull : Value → Bool
  | .null => true
  | _ => false

/-! ## from JSON -/

mutual

/-- The value of a JSON text; a number beyond all bounds has none. -/
def ofJson? : Json → Option Value
  | .null => some .null
  | .bool b => some (.bool b)
  | .number s => ofDecimal? s
  | .string s => some (.text s)
  | .array items => (ofItems? items).map .list
  | .object members => (ofMembers? members).map .map

/-- The values of some JSON items. -/
def ofItems? : List Json → Option (List Value)
  | [] => some []
  | v :: rest => do return (← ofJson? v) :: (← ofItems? rest)

/-- The values of some JSON members. -/
def ofMembers? : List (String × Json) → Option (List (String × Value))
  | [] => some []
  | (k, v) :: rest => do return (k, ← ofJson? v) :: (← ofMembers? rest)

end

end Value

end Ripple.Settings
