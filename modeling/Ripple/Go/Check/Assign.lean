import Ripple.Go.Check.Builtin
import Ripple.Go.Containment

/-!
# Ripple.Go.Check.Assign

What constants, variables and types are declared to be.
-/

namespace Ripple.Go

/-! ## variables -/

/-- The type of a variable that starts with a value, unless it is declared. -/
def World.initialType (w : World) (x : Operand) : Option Ty → Ty
  | some t => t
  | none => if x.isInvalid || !w.isValid x.type || x.isNil then .invalid else x.type.default

/-- The values of an expression for a number of variables.  For two variables an expression can come
with a flag. -/
def checkSeveral (c : Checker) (env : Env) (count : Nat) (e : Expr) : Check (List Operand) := do
  let x ← c.expr env .nothing e
  let flag : List Operand :=
    if count = 2 && x.hasFlag then [.value (.primitive .untypedBool)] else []
  return x.values ++ flag

/-- Whether an expression is a call. -/
def Expr.isCall (e : Expr) : Bool :=
  match e.unparen with
  | .call .. => true
  | _ => false

/-- The types that values give to variables, some of which have one already. -/
def initialTypes (c : Checker) (env : Env) (declared : List (Option Ty)) (values : List Expr) :
    Check (List Ty) := do
  let unknown := declared.map fun t => t.getD .invalid
  let fit (xs : List Operand) : Check (List Ty) := do
    let w ← world
    return if xs.length = declared.length then declared.zipWith (fun t x => w.initialType x t) xs
      else unknown
  match values, declared.length == values.length with
  | [e], one =>
    if one && !e.isCall then fit [← c.valueFor env (declared.head?.join) e]
    else fit (← checkSeveral c env declared.length e)
  | es, true => fit (← (declared.zip es).mapM fun (t, e) => c.valueFor env t e)
  | es, false =>
    c.useAll env es
    return unknown

/-- Declares variables with types. -/
def declareVariables (env : Env) (names : List String) (types : List Ty) : Env :=
  (names.zip types).foldl (fun env (n, t) => env.declare n (.variable t)) env

/-- The types of the variables of a specification.  Values beyond the variables do not matter. -/
def variableTypes (c : Checker) (env : Env) (count : Nat) (type : Option Expr)
    (values : List Expr) : Check (List Ty) := do
  let declared ← type.mapM (c.fullType env)
  match values with
  | [e] => initialTypes c env (List.replicate count declared) [e]
  | es =>
    let some_ ← (es.take count).mapM fun e => do
      let x ← c.valueFor env declared e
      return (← world).initialType x declared
    return some_ ++ List.replicate (count - some_.length) (declared.getD .invalid)

/-- A short variable declaration: names that the block does not declare yet are new. -/
def defineVariables (c : Checker) (env : Env) (lhs rhs : List Expr) : Check Env := do
  let names := lhs.map fun
    | .ident id => some id.name
    | _ => none
  lhs.forM fun
    | .ident _ => pure ()
    | e => discard (c.use env e)
  let declared := names.zipIdx.map fun (n, i) =>
    match n with
    | none => none
    | some n =>
      if n != "_" && (names.take i).contains (some n) then none
      else
        match (env.blocks.head?.getD []).lookup n with
        | some (.variable t) => some t
        | _ => none
  let types ← initialTypes c env declared rhs
  return declareVariables env (names.map fun n => n.getD "_") types

/-! ## constants -/

/-- The type and the value of a constant.  `announce` is told a declared type before the value is
looked at. -/
def constantParts (c : Checker) (env : Env) (type value : Option Expr) (iota : Nat)
    (announce : Ty → Check Unit) : Check (Ty × Constant) := do
  let env := { env with iota := some iota }
  let declared ← type.mapM (c.fullType env)
  let proper := declared.all ((← world).isPrimitive Primitive.isConstant)
  if !proper then return (.invalid, .unknown)
  declared.forM announce
  let x ← match value with
    | some e => c.value env e
    | none => pure .invalid
  let w ← world
  let x := if x.mode == .const && w.isValid x.type then x else .invalid
  match declared with
  | some t =>
    let y := w.assigned x (some t)
    return (t, if y.isInvalid then .unknown else y.const)
  | none => return (x.type, x.const)

/-! ## types -/

/-- What the name of a declared type stands for. -/
def declaredType (ref : TypeRef) (isAlias : Bool) : Ty :=
  if isAlias then .synonym ref [] else .named ref []

/-- Enters what is known of a declared type. -/
def enterType (ref : TypeRef) (params : List TypeRef) (rhs : Option Ty) : Check Unit :=
  modifyWorld fun w => { w with types := w.types.insert ref ⟨params, rhs, true⟩ }

/-- Works out the declaration of a type.  Its right side must not be a type parameter; that of an
alias must not be one of its own. -/
def checkTypeDeclaration (c : Checker) (env : Env) (ref : TypeRef) (typeParams : List Field)
    (isAlias : Bool) (type : Expr) : Check Unit := do
  enterType ref [] none
  let refs := typeParamRefs env typeParams
  enterType ref refs none
  let inner := declareTypeParams env.push refs
  checkBounds c inner typeParams
  let rhs ← c.fullType inner type
  let lost := match (← world).resolved rhs with
    | .param r => !isAlias || refs.contains r
    | _ => false
  enterType ref refs (some (if lost then .invalid else rhs))

/-! ## local declarations -/

/-- Declares what a local specification says. -/
def declareSpec (c : Checker) (env : Env) (s : Spec) : Check Env := do
  match s with
  | .const names type values iota =>
    let parts ← names.zipIdx.mapM fun (_, i) =>
      constantParts c env type values[i]? iota fun _ => pure ()
    return (names.zip parts).foldl (fun env (n, t, v) => env.declare n.name (.const t v)) env
  | .var names type values =>
    let types ← variableTypes c env names.length type values
    return declareVariables env (names.map (·.name)) types
  | .type name typeParams isAlias type =>
    let ref := typeRef env name
    enterType ref [] none
    let t := declaredType ref isAlias
    let env := env.declare name.name (.type t)
    checkTypeDeclaration c env ref typeParams isAlias type
    modifyWorld fun w => w.checkContainment t
    return env

end Ripple.Go
