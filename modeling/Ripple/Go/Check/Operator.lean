import Ripple.Go.Check.Types
import Ripple.Go.Operation

/-!
# Ripple.Go.Check.Operator

The meaning of expressions with operators, of type assertions and of conversions.
-/

namespace Ripple.Go

/-- What is received from a channel of a type. -/
def World.received? (w : World) (t : Ty) : Option Ty :=
  let open_ := w.allUnder t fun
    | .chan .send _ => false
    | .chan _ _ => true
    | _ => false
  match open_, w.common? t with
  | true, some (.chan _ e) => some e
  | _, _ => none

/-- What a pointer of a type points to. -/
def World.pointee? (w : World) (t : Ty) : Option Ty := do
  let us ← w.instances t
  let es ← us.mapM fun (_, u) => match u with
    | .pointer e => some e
    | _ => none
  match es with
  | [] => none
  | e :: rest => if rest.all (w.identical e) then some e else none

/-- The meaning of an expression under an operator. -/
def checkUnary (c : Checker) (env : Env) (op : String) (e : Expr) : Check Operand := do
  let x ← c.value env e
  if x.isInvalid then return .invalid
  match op with
  | "&" =>
    let literal := match e.unparen with
      | .composite _ _ => true
      | _ => false
    return if literal || x.mode == .variable then .value (.pointer x.type) else .invalid
  | "<-" =>
    match (← world).received? x.type with
    | some t =>
      noteCall
      return .of .commaOk t
    | none => return .invalid
  | _ => return (← world).unary op x

/-- What a pointer points to, or the type of pointers to a type. -/
def checkStar (c : Checker) (env : Env) (e : Expr) : Check Operand := do
  let x ← c.valueOrType env false e
  if x.isInvalid then return .invalid
  else if x.mode == .type then return .of .type (.pointer x.type)
  else
    match (← world).pointee? x.type with
    | some t => return .of .variable t
    | none => return .invalid

/-- The meaning of an operator between two expressions. -/
def checkBinary (c : Checker) (env : Env) (op : String) (e f : Expr) : Check Operand := do
  let x ← c.value env e
  let y ← c.value env f
  return (← world).binary op x y

/-- The meaning of a type assertion, which needs a value of an interface. -/
def checkAssertion (c : Checker) (env : Env) (e : Expr) (type : Option Expr) : Check Operand := do
  let x ← c.value env e
  if x.isInvalid || !(← world).isInterface x.type then return .invalid
  match type with
  | none => return .invalid
  | some t =>
    let t ← c.fullType env t
    return if (← world).isValid t then .of .commaOk t else .invalid

/-- The conversion of arguments, of which there must be one, to a type. -/
def checkConversion (c : Checker) (env : Env) (t : Ty) (args : List Expr) (spread : Bool) :
    Check Operand := do
  match args with
  | [e] =>
    let x ← c.value env e
    let w ← world
    let constraint := w.isInterface t && !w.isMethodSet t
    return if x.isInvalid || constraint || spread then .invalid else w.conversion x t
  | es =>
    c.useAll env es
    return .invalid

end Ripple.Go
