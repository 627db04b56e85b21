import Ripple.Go.Tree
import Std.Data.HashMap
import Std.Data.HashSet

/-!
# Ripple.Go.Resolution

What is known of the names of a file: the functions and the fields that they stand for.
-/

namespace Ripple.Go

/-- The names of a file that were resolved, by their positions. -/
structure Resolution where
  /-- The signatures of the functions and methods that names stand for. -/
  functions : Std.HashMap Nat String
  /-- The names that stand for fields of structs. -/
  fields : Std.HashSet Nat
  deriving Inhabited

/-- Nothing resolved. -/
def Resolution.empty : Resolution := ⟨∅, ∅⟩

/-- The name that a called expression goes by. -/
def Expr.calledName? : Expr → Option Ident
  | .ident id => some id
  | .selector _ sel => some sel
  | .paren x => x.calledName?
  | _ => none

end Ripple.Go
