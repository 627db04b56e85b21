import Ripple.Settings.Basic
import Ripple.Settings.Value
import Ripple.Word

/-!
# Ripple.Settings.Decode

Values as settings.  A value of another kind is converted where that makes sense: a number or a
truth value becomes a text, a text becomes a number, and a single value becomes a list.
-/

namespace Ripple.Settings

/-- A value as a text. -/
def Value.asText? : Value → Option String
  | .null => some ""
  | .text s => some s
  | .bool b => some (if b then "1" else "0")
  | .int n => some (toString n)
  | .float x => some (Decimal.plain x)
  | .time | .list _ | .map _ => none

/-- A value as a whole number of 64 bits; a larger one loses its high bits, and a fraction is cut
off. -/
def Value.asInt? : Value → Option Int
  | .null => some 0
  | .int n => some (Int.bmod n Word.count)
  | .float x => some (Decimal.truncate x)
  | .bool b => some (if b then 1 else 0)
  | .text "" => some 0
  | .text s => (Text.Integer.parse? s).filter Text.Integer.fits
  | .time | .list _ | .map _ => none

/-- A value as a span of time: a text with units, or a number of nanoseconds. -/
def Value.asDuration? : Value → Option Int
  | .text s => (Duration.parse s).toOption
  | v => v.asInt?

/-- A value as a list of texts.  A text is divided at its commas; the empty text and the empty map
are the empty list. -/
def Value.asTexts? : Value → Option (List String)
  | .list items => items.mapM Value.asText?
  | .text "" => some []
  | .text s => some (Text.splitOn ',' s)
  | .map [] => some []
  | v => v.asText?.map ([·])

end Ripple.Settings
