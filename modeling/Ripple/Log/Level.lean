import Ripple.Text.Blank
import Ripple.Text.Integer
import Ripple.Text.Quoted
import Ripple.Text.Search
import Ripple.Word

/-!
# Ripple.Log.Level

How severe a log message is.  Four levels have names, four steps apart; a level between them is
written as an offset from the one below (`INFO+2`).
-/

namespace Ripple.Log

/-- The severity of a message. -/
abbrev Level := Int

namespace Level

/-- The names, from the lowest level up. -/
def names : List (String × Level) := [("DEBUG", -4), ("INFO", 0), ("WARN", 4), ("ERROR", 8)]

/-- A level as an offset from a named one. -/
def fromName (name : String) (offset : Int) : String :=
  if offset = 0 then name
  else if offset > 0 then s!"{name}+{offset}"
  else s!"{name}{offset}"

/-- A level as text. -/
def render (l : Level) : String :=
  if l < 0 then fromName "DEBUG" (l + 4)
  else if l < 4 then fromName "INFO" l
  else if l < 8 then fromName "WARN" (l - 4)
  else fromName "ERROR" (l - 8)

/-- Why a text is no level. -/
inductive Problem where
  | unknownName
  | badOffset (text : String)
  | largeOffset (text : String)
  deriving DecidableEq, Repr

/-- What is wrong with a text. -/
def Problem.message : Problem → String
  | unknownName => "unknown name"
  | badOffset text => s!"strconv.Atoi: parsing {Text.quote text}: invalid syntax"
  | largeOffset text => s!"strconv.Atoi: parsing {Text.quote text}: value out of range"

/-- A decimal number with a sign. -/
def offset? (text : String) : Option Int :=
  let value (ds : List Char) : Option Int :=
    if ds.isEmpty || !ds.all Char.isDigit then none else (Text.Integer.value? 10 0 ds).map Int.ofNat
  match text.toList with
  | '-' :: ds => (value ds).map (- ·)
  | '+' :: ds => value ds
  | ds => value ds

/-- The capital letter; beside the ASCII letters a small `i` without a dot has one among them. -/
def capital (c : Char) : Char := if c == 'ı' then 'I' else c.toUpper

/-- The level with a name, in any case. -/
def named? (name : String) : Option Level :=
  names.lookup (String.ofList (name.toList.map capital))

/-- The level that a text stands for: a name, and perhaps an offset with its sign. -/
def parse (s : String) : Except Problem Level :=
  let isSign (c : Char) := c == '+' || c == '-'
  let name := String.ofList (s.toList.takeWhile (!isSign ·))
  let rest := String.ofList (s.toList.dropWhile (!isSign ·))
  let offset : Except Problem Int :=
    if rest = "" then .ok 0
    else
      match offset? rest with
      | none => .error (.badOffset rest)
      | some n => if Text.Integer.fits n then .ok n else .error (.largeOffset rest)
  match offset, named? name with
  | .error p, _ => .error p
  | .ok _, none => .error .unknownName
  | .ok n, some l => .ok (Int.bmod (l + n) Word.count)

end Level

end Ripple.Log
