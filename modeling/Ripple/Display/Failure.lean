import Ripple.Failure
import Ripple.Json.Basic

/-!
# Ripple.Display.Failure

Failures as JSON.  Only a layer with a code has a form of its own, and its cause is not part of it.
-/

namespace Ripple

/-- Code and text of a layer. -/
def Failure.codedJson (code : Code) (text : String) : Json :=
  .object [("code", .string code), ("message", .string text)]

/-- The outermost layer as JSON, if it has a code. -/
def Failure.toJson? : Failure → Option Json
  | coded code text | codedOver code text _ => some (codedJson code text)
  | root _ | within _ _ => none

end Ripple
