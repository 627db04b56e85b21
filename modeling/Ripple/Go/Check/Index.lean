import Ripple.Go.Check.Operator

/-!
# Ripple.Go.Check.Index

Elements and slices of values, and generic functions with type arguments.
-/

namespace Ripple.Go

/-! ## indices -/

/-- Whether an operand can be an index.  A constant one must not be negative, unless that is
allowed. -/
def World.isIndex (w : World) (negative : Bool) (x : Operand) : Bool :=
  let x := w.converted x (.primitive .int)
  !x.isInvalid && w.allPrimitive Primitive.isInteger x.type &&
    (x.mode != .const ||
      match x.const.int? with
      | some n => (negative || 0 ≤ n) && Constant.inRange .int n
      | none => true)

/-- Checks an index, and gives its value if it is a constant below a limit. -/
def indexValue? (c : Checker) (env : Env) (limit : Option Nat) (e : Expr) : Check (Option Nat) := do
  let x ← c.value env e
  if x.mode != .const || !(← world).isIndex false x then return none
  match x.const.int? with
  | some n => return if limit.all (n.toNat < ·) then some n.toNat else none
  | none => return none

/-! ## elements -/

/-- What an index of a value gives. -/
structure Indexed where
  element : Ty
  /-- The type of the keys of a map. -/
  key : Option Ty
  /-- The element has an address, if the value has one in the case of an array. -/
  mode : Mode

/-- What an index gives of a value made of a type. -/
def World.indexed? (w : World) (mode : Mode) (u : Ty) : Option Indexed :=
  match u with
  | .primitive p => if p.isString then some ⟨.primitive .byte, none, .value⟩ else none
  | .array _ e => some ⟨e, none, if mode == .variable then .variable else .value⟩
  | .pointer p =>
    match w.underlying p with
    | .array _ e => some ⟨e, none, .variable⟩
    | _ => none
  | .slice e => some ⟨e, none, .variable⟩
  | .map k e => some ⟨e, some k, .mapIndex⟩
  | _ => none

/-- What an index gives of an operand; all types behind a type parameter must agree. -/
def World.elementOf? (w : World) (x : Operand) : Option Indexed := do
  let us ← w.instances x.type
  let parts ← us.mapM fun (_, u) => w.indexed? x.mode u
  match parts with
  | [] => none
  | p :: rest =>
    let sameKey (q : Indexed) : Bool := match p.key, q.key with
      | some k, some l => w.identical k l
      | none, none => true
      | _, _ => false
    if rest.all fun q => sameKey q && w.identical p.element q.element then
      some { p with mode := if rest.any (·.mode == .value) then .value else p.mode }
    else none

/-! ## generic functions -/

/-- Whether an operand is a generic function. -/
def World.isGenericFunction (w : World) (x : Operand) : Bool :=
  match w.underlying x.type with
  | .func (_ :: _) _ _ _ _ _ => x.mode == .value
  | _ => false

/-- A function type without its type parameters, for which types are put. -/
def Ty.instantiate (args : List Ty) : Ty → Ty
  | .func ps names params variadic resultNames results =>
    let σ := bindParams ps args
    .func [] names (Ty.substAll σ params) variadic resultNames (Ty.substAll σ results)
  | t => t

/-- A generic function with some of its type arguments; the others are found from the type of the
variable to which it is assigned. -/
def World.completed? (w : World) (t : Ty) (given : List Ty) (target : Option Ty) : Option Ty :=
  match t with
  | .func ps names params variadic resultNames results =>
    if ps.length ≤ given.length then
      if given.length = ps.length then some (t.instantiate given) else none
    else
      let (v, fresh, σ) := w.copyParams 1 ps
      let plain := (Ty.func [] names params variadic resultNames results).subst σ
      let pairs := match target.map w.underlying with
        | some (.func ps names params variadic resultNames results) =>
          [(plain, Operand.value (.func ps names params variadic resultNames results))]
        | _ => []
      let slots := given.map some ++ List.replicate (ps.length - given.length) none
      (v.infer? fresh slots pairs).map t.instantiate
  | _ => none

/-- A generic function with type arguments.  Those that are missing are found if `infer` says so;
otherwise they stay open. -/
def instantiateFunction (c : Checker) (env : Env) (target : Option Ty) (infer : Bool) (x : Operand)
    (args : List Expr) : Check (Operand × List Ty) := do
  match x.type, ← typeList c env args with
  | .func ps names params variadic resultNames results, some given =>
    let t : Ty := .func ps names params variadic resultNames results
    if given.length < ps.length && !infer then return (x, given)
    match (← world).completed? t given target with
    | some t => return (.value t, [])
    | none => return (.invalid, [])
  | _, _ => return (.invalid, [])

/-- An operand that is no generic function or type; one to be assigned is completed. -/
def World.nonGeneric (w : World) (target : Option Ty) (x : Operand) : Operand :=
  match x.type with
  | .func (p :: ps) names params variadic resultNames results =>
    let t := Ty.func (p :: ps) names params variadic resultNames results
    match target.map w.underlying with
    | some (.func ..) =>
      match w.completed? t [] target with
      | some t => .value t
      | none => .invalid
    | _ => .invalid
  | t => if w.isGeneric t then .invalid else x

/-! ## index expressions -/

/-- Whether what stands in brackets after a generic function counts as a type.  An untyped value
does not. -/
def countsAsType (c : Checker) (env : Env) : Expr → Check Bool
  | .literal _ _ => return false
  | .unary op x => return !(← c.expr env .nothing (.unary op x)).type.isUntyped
  | .binary op x y => return !(← c.expr env .nothing (.binary op x y)).type.isUntyped
  | _ => return true

/-- Drops the note on a function that is indexed by a value and so is not called by its name. -/
def dropIndexed (env : Env) (e : Expr) : Check Unit :=
  match e.calledName? with
  | some id => dropFunction env id
  | none => pure ()

/-- An index without a meaning. -/
def useIndices (c : Checker) (env : Env) (e : Expr) (args : List Expr) : Check Operand := do
  let xs ← args.mapM (c.use env)
  match xs with
  | [x] => if x.mode != .type then dropIndexed env e
  | _ => pure ()
  return .invalid

/-- The meaning of an index; the flag says that it is a generic function whose type arguments are
still to be looked at. -/
def checkIndex (c : Checker) (env : Env) (e : Expr) (args : List Expr) :
    Check (Operand × Bool) := do
  let x ← c.valueOrType env true e
  let w ← world
  if x.isInvalid then return (← useIndices c env e args, false)
  else if x.mode == .type then
    let t ← c.fullType env (.index e args)
    return (if (← world).isValid t then .of .type t else .invalid, false)
  else if w.isGenericFunction x then
    match args with
    | [a] => if !(← countsAsType c env a) then dropIndexed env e
    | _ => pure ()
    return (x, true)
  else
    match w.elementOf? x with
    | none => return (← useIndices c env e args, false)
    | some i =>
      match args with
      | [] => return (.invalid, false)
      | a :: _ =>
        let k ← c.use env a
        if args.length = 1 && k.mode != .type then dropIndexed env e
        return (.of i.mode i.element, false)

/-- The meaning of an index or of an instantiation. -/
def checkIndexed (c : Checker) (env : Env) (wanted : Wanted) (e : Expr) (args : List Expr) :
    Check Operand := do
  let (x, generic) ← checkIndex c env e args
  if generic then return (← instantiateFunction c env wanted.target true x args).1 else return x

/-! ## slices -/

/-- What a slice of a value has as its type, where texts count as slices of bytes; whether indices
are looked at even if there is none. -/
def World.sliced? (w : World) (x : Operand) (three : Bool) : Option Ty × Bool :=
  let bytes := Ty.slice (.primitive .byte)
  let plain (u : Ty) : Ty := match u with
    | .primitive p => if p.isString then bytes else u
    | u => u
  match w.instances x.type with
  | none | some [] => (none, false)
  | some ((t, u) :: rest) =>
    let texts := ((t, u) :: rest).any fun (_, u) => w.isPrimitive Primitive.isString u
    if !rest.all fun (_, v) => w.identical (plain u) (plain v) then (none, false)
    else if texts then
      if three then (none, false)
      else (some (if x.type.isUntyped then .primitive .string else x.type), true)
    else
      match u with
      | .array _ e => if x.mode == .variable then (some (.slice e), true) else (none, false)
      | .pointer p =>
        match w.underlying p with
        | .array _ e => (some (.slice e), true)
        | _ => (none, true)
      | .slice _ => (some x.type, true)
      | _ => (none, true)

/-- The meaning of a slice of a value. -/
def checkSlice (c : Checker) (env : Env) (e : Expr) (low high max : Option Expr) :
    Check Operand := do
  let bounds := [low, high, max].filterMap id
  let x ← c.value env e
  if x.isInvalid then
    c.useAll env bounds
    return .invalid
  let (type, looks) := (← world).sliced? x max.isSome
  if looks then bounds.forM fun b => discard (c.value env b)
  match type with
  | some t => return .value t
  | none => return .invalid

end Ripple.Go
