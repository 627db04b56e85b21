import Ripple.Go.Check.Literal

/-!
# Ripple.Go.Check.Call

Calls of functions and methods.
-/

namespace Ripple.Go

/-- An argument of a call. -/
structure Argument where
  operand : Operand
  /-- The type arguments that a generic function brings along. -/
  given : List Ty

/-- An argument that is not a generic function. -/
def Argument.ofOperand (x : Operand) : Argument := ⟨x, []⟩

/-- Whether a place is in a file of at least a version of the language. -/
def Env.atLeast (env : Env) (version : Nat) : Bool := version ≤ env.file.version

/-- An argument of a call, or several if it is a call with several results that stands alone. -/
def checkArgument (c : Checker) (env : Env) (alone : Bool) (e : Expr) : Check (List Argument) := do
  match e with
  | .index x args =>
    let (o, generic) ← checkIndex c env x args
    if generic then
      let (o, given) ← instantiateFunction c env none (!env.atLeast 21) o args
      return [⟨o, given⟩]
    else return [.ofOperand o.asValue]
  | e =>
    let x ← c.expr env ⟨none, none, true⟩ e
    return if alone then x.values.map .ofOperand else [.ofOperand x.asValue]

/-- The arguments of a call. -/
def checkArguments (c : Checker) (env : Env) (es : List Expr) : Check (List Argument) := do
  return (← es.mapM (checkArgument c env (es.length == 1))).flatten

/-- The types that a function with parameters asks of a number of arguments.  A variadic function
takes any number of the last; with `spread` it takes a slice. -/
def parametersFor? (params : List Ty) (variadic spread : Bool) (count : Nat) : Option (List Ty) :=
  let expected :=
    if variadic && !spread then
      let fixed := params.dropLast
      let last := match params.getLast? with
        | some (.slice e) => e
        | _ => .invalid
      fixed ++ List.replicate (count - fixed.length) last
    else params
  if (spread && !variadic) || expected.length != count then none else some expected

/-- A function type as one without type parameters of its own. -/
def Ty.bare : Ty → Ty
  | .func _ names params variadic resultNames results =>
    .func [] names params variadic resultNames results
  | t => t

/-- The type parameters of an argument that is a generic function. -/
def Argument.typeParams (a : Argument) : List TypeRef :=
  match a.operand.type with
  | .func ps _ _ _ _ _ => ps
  | _ => []

/-- What is sought in a call: the types for the parameters of the function and of the generic
functions among its arguments, each under names of its own. -/
structure Search where
  world : World
  refs : List TypeRef
  given : List (Option Ty)

/-- Adds type parameters to a search, with those types for them that are given. -/
def Search.add (s : Search) (copy : Nat) (ps : List TypeRef) (given : List Ty) : Search × Subst :=
  let (w, fresh, σ) := s.world.copyParams copy ps
  (⟨w, s.refs ++ fresh,
    s.given ++ given.map some ++ List.replicate (ps.length - given.length) none⟩, σ)

/-- A function type after a call with arguments: with its type arguments if they can be found, else
as it is.  `alone` says that one expression stands for all arguments. -/
def World.applied (w : World) (t : Ty) (given : List Ty) (spread alone : Bool)
    (args : List Argument) : Ty :=
  match t with
  | .func ps _ params variadic _ _ =>
    let several := spread && alone && 1 < args.length
    match parametersFor? params variadic spread args.length with
    | none => t
    | some expected =>
      if several then t
      else
        let (s, σ) := Search.add ⟨w, [], []⟩ 1 ps given
        let (s, pairs) := (expected.zip args).zipIdx.foldl (fun (s, pairs) ((p, a), i) =>
          match a.typeParams with
          | [] => (s, pairs ++ [(p.subst σ, a.operand)])
          | qs =>
            let (s, τ) := Search.add s (i + 2) qs a.given
            (s, pairs ++ [(p.subst σ, { a.operand with type := a.operand.type.bare.subst τ })]))
          (s, [])
        if s.refs.isEmpty then t
        else
          match s.world.infer? s.refs s.given pairs with
          | some ts => t.instantiate (ts.take ps.length)
          | none => t
  | t => t

/-- The results of a call of a function of a type.  One that depends on a type argument that was not
found has no meaning. -/
def resultOperand : Ty → Operand
  | .func ps _ _ _ _ results =>
    match results with
    | [] => .nothing
    | [t] => if t.mentions ps then .invalid else .value t
    | ts => if Ty.anyMentions ps ts then .invalid else .value (.tuple ts)
  | _ => .invalid

/-- A function with the type arguments in brackets after it, or none if they are wrong. -/
def explicitArguments? (c : Checker) (env : Env) (t : Ty) (args : Option (List Expr)) :
    Check (Option (Ty × List Ty)) := do
  match args, t with
  | some es, .func ps _ _ _ _ _ =>
    match ← typeList c env es with
    | none => return none
    | some ts =>
      if ps.length < ts.length then return none
      else if ts.length = ps.length then return some (t.instantiate ts, [])
      else return some (t, ts)
  | _, t => return some (t, [])

/-- The meaning of a call of a function that is no conversion and no built-in function. -/
def callFunction (c : Checker) (env : Env) (f : Operand) (typeArgs : Option (List Expr))
    (args : List Expr) (spread : Bool) : Check Operand := do
  match (← world).common? f.type with
  | some (.func ps names params variadic resultNames results) =>
    let t := Ty.func ps names params variadic resultNames results
    match ← explicitArguments? c env t typeArgs with
    | some (t, given) =>
      let xs ← checkArguments c env args
      noteCall
      return resultOperand ((← world).applied t given spread (args.length == 1) xs)
    | none =>
      c.useAll env args
      return .invalid
  | _ =>
    c.useAll env args
    return .invalid

end Ripple.Go
