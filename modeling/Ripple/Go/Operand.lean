import Ripple.Go.Member

/-!
# Ripple.Go.Operand

The meanings of expressions, and when a value can be used as one of another type.
-/

namespace Ripple.Go

/-- The ways in which an expression can have a meaning. -/
inductive Mode where
  | invalid
  /-- A call without results. -/
  | noValue
  | builtin
  | type
  | const
  /-- A value that has an address. -/
  | variable
  /-- An element of a map. -/
  | mapIndex
  | value
  /-- A value that can come with a flag: a type assertion, a receipt. -/
  | commaOk
  deriving DecidableEq, Repr, Inhabited

/-- The meaning of an expression. -/
structure Operand where
  mode : Mode
  type : Ty
  const : Constant
  /-- The name of a built-in function. -/
  name : String
  deriving Inhabited

namespace Operand

/-- No meaning. -/
def invalid : Operand := ⟨.invalid, .invalid, .unknown, ""⟩

/-- A call without results. -/
def nothing : Operand := ⟨.noValue, .invalid, .unknown, ""⟩

/-- A meaning of a kind with a type. -/
def of (mode : Mode) (type : Ty) : Operand := ⟨mode, type, .unknown, ""⟩

/-- A value of a type. -/
def value (type : Ty) : Operand := .of .value type

/-- A constant. -/
def constant (type : Ty) (c : Constant) : Operand := ⟨.const, type, c, ""⟩

/-- Whether the operand has no meaning. -/
def isInvalid (x : Operand) : Bool := x.mode == .invalid

/-- Whether the operand is a value. -/
def isValue (x : Operand) : Bool :=
  match x.mode with
  | .const | .variable | .mapIndex | .value | .commaOk => true
  | _ => false

/-- Whether the operand is `nil`. -/
def isNil (x : Operand) : Bool :=
  match x.type with
  | .primitive .untypedNil => x.mode == .value
  | _ => false

/-- Whether the operand can come with a flag. -/
def hasFlag (x : Operand) : Bool := x.mode == .mapIndex || x.mode == .commaOk

/-- An operand that does not stand for several values or for none, or nothing. -/
def single (x : Operand) : Operand :=
  match x.mode, x.type with
  | .value, .tuple _ | .noValue, _ => invalid
  | _, _ => x

/-- An operand that is a value, or nothing. -/
def asValue (x : Operand) : Operand :=
  if x.mode == .type || x.mode == .builtin then invalid else x.single

/-- The values that an operand stands for, which are several for a call with several results. -/
def values (x : Operand) : List Operand :=
  match x.mode, x.type with
  | .value, .tuple ts => ts.map .value
  | _, _ => [x.asValue]

/-- An untyped operand, whose type is the first, as one of a type made of the second. -/
def represented? (x : Operand) (p q : Primitive) (target : Ty) : Option (Ty × Constant) :=
  if x.isNil then if q == .pointer then some (x.type, x.const) else none
  else if x.mode == .const then (x.const.represented? q).map fun c => (target, c)
  else
    let fits := if p.isBoolean then q.isBoolean else if p.isString then q.isString
      else p.isNumeric && q.isNumeric
    if fits then some (target, x.const) else none

end Operand

/-- The larger of two untyped types, if one includes the other. -/
def largerUntyped? (p q : Primitive) : Option Primitive :=
  if p == q then some p
  else if 0 < p.rank && 0 < q.rank then some (if q.rank < p.rank then p else q)
  else none

/-- A type without the tags of its structs. -/
def Ty.untagged (t : Ty) : Ty :=
  match t with
  | .struct names types => .struct (names.map fun f => { f with tag := ⟨[]⟩ }) types
  | t => t

namespace World

/-! ## untyped values -/

/-- The type and value that an untyped operand has where a type is asked for that is no type
parameter. -/
def implicitPlain? (w : World) (x : Operand) (target : Ty) : Option (Ty × Constant) :=
  match x.type, target with
  | .primitive p, .primitive q =>
    if q.isUntyped then (largerUntyped? p q).map fun m => (.primitive m, x.const)
    else x.represented? p q target
  | .primitive p, _ =>
    if x.isNil then if w.hasNil target then some (x.type, x.const) else none
    else
      match w.underlying target with
      | .primitive q => x.represented? p q target
      | .interface .. =>
        let s := w.typeSet target
        if s.methods.isEmpty && s.terms.isNone && !s.comparable then
          some (x.type.default, x.const)
        else none
      | _ => none
  | _, _ => none

/-- The type and value that an operand has where a type is asked for; a typed one keeps its own. -/
def implicit? (w : World) (x : Operand) (target : Ty) : Option (Ty × Constant) :=
  if x.isInvalid || !x.type.isUntyped || !w.isValid target then some (x.type, x.const)
  else if w.isParam target then
    if x.isNil then if w.hasNil target then some (x.type, x.const) else none
    else if w.allUnder target fun u => (w.implicitPlain? x u).isSome then some (target, x.const)
    else none
  else w.implicitPlain? x (w.resolved target)

/-! ## interfaces -/

/-- Whether a set has no types. -/
def isEmptySet (s : TypeSet) : Bool :=
  match s.terms with
  | some [] => true
  | _ => false

/-- Whether a term has a type. -/
def termIncludes (w : World) (x : Term) (t : Ty) : Bool :=
  w.identical x.type (if x.tilde then w.underlying t else t)

/-- Whether two terms have no type in common. -/
def disjoint (w : World) (x y : Term) : Bool :=
  !w.identical (if y.tilde then w.underlying x.type else x.type)
    (if x.tilde then w.underlying y.type else y.type)

/-- Whether a type implements an interface, or as a type argument satisfies it.  Types that cannot
be resolved pass. -/
def implements (w : World) (satisfies : Bool) (t iface : Ty) : Bool :=
  let u := w.underlying t
  let broken := match u with
    | .invalid => true
    | .pointer e => (w.underlying e).isInvalid
    | _ => false
  match broken, w.underlying iface with
  | true, _ | _, .invalid => true
  | false, .interface .. =>
    let s := w.typeSet iface
    let own := match u with
      | .interface .. => some (w.typeSet t)
      | _ => none
    let comparable := !s.comparable || w.isStrictlyComparable t || (satisfies && w.isComparable t)
    if s.methods.isEmpty && s.terms.isNone && !s.comparable then true
    else if own.any isEmptySet then true
    else if isEmptySet s then false
    else if !w.hasMethods w.identical true t iface then false
    else
      match s.terms, own with
      | none, _ => comparable
      | some terms, some o =>
        match o.terms with
        | some ts => ts.all (Terms.covers w.disjoint terms) && comparable
        | none => false
      | some terms, none => terms.any (fun x => w.termIncludes x t) && comparable
  | false, _ => false

/-! ## use as another type -/

/-- Whether a type goes by a name: a predeclared type, a declared type or a type parameter. -/
def hasName (w : World) (t : Ty) : Bool :=
  match w.resolved t with
  | .primitive _ | .named _ _ | .param _ => true
  | _ => false

/-- Whether an operand can be assigned to a type neither of which is a type parameter. -/
def assignablePlain (w : World) (x : Operand) (t : Ty) : Bool :=
  let v := w.resolved x.type
  let vu := w.underlying v
  let tu := w.underlying t
  if x.isInvalid || !w.isValid t || w.identical v t then true
  else if v.isUntyped then (w.implicit? x t).isSome
  else if w.identical vu tu && (!w.hasName v || !w.hasName t) && !w.isParam v && !w.isParam t then
    true
  else
    let implemented := match tu with
      | .interface .. => !w.isParam t && w.implements false v t
      | _ => false
    implemented ||
      match vu, tu with
      | .chan .both a, .chan _ b => w.identical a b && (!w.hasName v || !w.hasName t)
      | _, _ => false

/-- Whether an operand can be assigned to a type. -/
def assignable (w : World) (x : Operand) (t : Ty) : Bool :=
  w.assignablePlain x t ||
    if w.isParam t && !w.hasName x.type then
      match w.instances t with
      | some us => us.all fun (u, _) => w.assignablePlain x u
      | none => false
    else if w.isParam x.type && !w.hasName t then
      match w.instances x.type with
      | some us => us.all fun (u, _) => w.assignablePlain { x with type := u } t
      | none => false
    else false

/-- Whether a type is a slice of bytes or of runes. -/
def isBytesOrRunes (w : World) (t : Ty) : Bool :=
  match w.underlying t with
  | .slice e =>
    match w.underlying e with
    | .primitive p => p.plain == .uint8 || p.plain == .int32
    | _ => false
  | _ => false

/-- Whether an operand can be converted to a type neither of which is a type parameter. -/
def convertiblePlain (w : World) (x : Operand) (t : Ty) : Bool :=
  let v := w.resolved x.type
  let t := w.resolved t
  let vu := w.underlying v
  let tu := w.underlying t
  let plain := !w.isParam v && !w.isParam t
  let real (p : Primitive) : Bool := p.isInteger || p.isFloat
  let isPointer (u : Ty) : Bool := match u with
    | .pointer _ => true
    | _ => false
  w.assignable x t || (plain && w.identical vu.untagged tu.untagged) ||
    (match v, t with
      | .pointer a, .pointer b =>
        !w.isParam a && !w.isParam b &&
          w.identical (w.underlying a).untagged (w.underlying b).untagged
      | _, _ => false) ||
    (w.isPrimitive real vu && w.isPrimitive real tu) ||
    (w.isPrimitive Primitive.isComplex vu && w.isPrimitive Primitive.isComplex tu) ||
    ((w.isPrimitive Primitive.isInteger vu || w.isBytesOrRunes vu) &&
      w.isPrimitive Primitive.isString tu) ||
    (w.isPrimitive Primitive.isString vu && w.isBytesOrRunes tu) ||
    ((isPointer vu || w.isPrimitive (· == .uintptr) vu) && w.isPrimitive (· == .pointer) tu) ||
    (w.isPrimitive (· == .pointer) vu && (isPointer tu || w.isPrimitive (· == .uintptr) tu)) ||
    (match vu, tu with
      | .slice a, .array _ b => w.identical a b
      | .slice a, .pointer p =>
        match w.underlying p with
        | .array _ b => w.identical a b
        | _ => false
      | _, _ => false)

/-- Whether an operand that is no constant can be converted to a type. -/
def convertible (w : World) (x : Operand) (t : Ty) : Bool :=
  w.convertiblePlain x t ||
    if w.isParam x.type || w.isParam t then
      match w.instances x.type, w.instances t with
      | some vs, some ts =>
        vs.all fun (v, _) => ts.all fun (u, _) => w.convertiblePlain { x with type := v } u
      | _, _ => false
    else false

end World

end Ripple.Go
