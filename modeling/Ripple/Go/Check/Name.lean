import Ripple.Go.Check.Basic

/-!
# Ripple.Go.Check.Name

What names and selectors stand for.  A name at the top of a package leads to its declaration, which
is worked out when it is needed first.
-/

namespace Ripple.Go

/-! ## names -/

/-- Whether a declaration declares a type. -/
def DeclBody.isType : DeclBody → Bool
  | .type .. => true
  | _ => false

/-- What a declaration stands for.  Where a type is wanted, a type of the same package that is still
being worked out is looked at again, so that circles are found. -/
def declaredObject (c : Checker) (env : Env) (r : DeclRef) (wantsType : Bool) :
    Check (Option Object) := do
  let again := match (← world).objects[r]? with
    | none => true
    | some (.type _) => wantsType && r.package == env.package.path
    | some _ => false
  if again then c.declare env.inTypeParams r
  return (← world).objects[r]?

/-- What a name stands for at a place.  Where a type is wanted, other things are not looked into. -/
def lookup (c : Checker) (env : Env) (name : String) (wantsType : Bool) :
    Check (Option Object) := do
  let w ← world
  match env.find? w name with
  | none => return none
  | some (.object o) => return some o
  | some (.decl r) =>
    if wantsType && !((w.declaration? r).any (·.body.isType)) then return none
    else declaredObject c env r wantsType

/-- The meaning of a name that stands for an object. -/
def objectOperand (env : Env) (id : Ident) : Object → Check Operand
  | .variable t => return .of .variable t
  | .const t v => return .constant t v
  | .type t => return .of .type t
  | .func t s _ => do
    noteFunction env id s
    return .value t
  | .builtin n => return ⟨.builtin, .invalid, .unknown, n⟩
  | .absent => return .value (.primitive .untypedNil)
  | .package _ => return .invalid

/-- The meaning of a name; a constant or a variable without a type has none. -/
def checkName (c : Checker) (env : Env) (id : Ident) : Check Operand := do
  match ← lookup c env id.name false with
  | none => return .invalid
  | some o =>
    let x ← objectOperand env id o
    let lost := (x.mode == .const || x.mode == .variable) && !(← world).isValid x.type
    return if lost then .invalid else x

/-! ## selectors -/

/-- The package that an expression names. -/
def packageNamed? (env : Env) (e : Expr) : Check (Option String) := do
  match e with
  | .ident id =>
    match env.find? (← world) id.name with
    | some (.object (.package path)) => return some path
    | _ => return none
  | _ => return none

/-- What a name of another package stands for.  It need not be exported. -/
def qualified? (c : Checker) (env : Env) (path name : String) : Check (Option Object) := do
  if path == "unsafe" then return lowLevel? name
  else
    match (← world).named? path name with
    | some r => declaredObject c env r false
    | none => return none

/-- A method as a function whose first parameter is the receiver. -/
def methodFunction (receiver : Ty) : Ty → Ty
  | .func ps names params variadic resultNames results =>
    .func ps ("" :: names) (receiver :: params) variadic resultNames results
  | t => t

/-- The type of a method, with a note on the name that selects it. -/
def methodOperand (c : Checker) (env : Env) (sel : Ident) : Member → Check Ty
  | .method m args => do
    c.declare false m.decl
    let w ← world
    match w.objects[m.decl]? with
    | some (.func _ s _) => noteFunction env sel s
    | _ => pure ()
    return (w.methodType? m args).getD .invalid
  | .abstract m t => do
    if (← world).owns m.package then noteFunction env sel (some m.signature)
    return t
  | .field _ t => return t

/-- A member selected from a value or from a type. -/
def memberOperand (c : Checker) (env : Env) (x : Operand) (sel : Ident) : Check Operand := do
  let w ← world
  match w.member? env.package.path sel.name (x.mode == .variable) x.type with
  | none => return .invalid
  | some ⟨.field f t, indirect, _⟩ =>
    if x.mode == .type then return .invalid
    else
      noteField env sel f.package
      return .of (if x.mode == .variable || indirect then .variable else .value) t
  | some ⟨m, _, _⟩ =>
    let t ← methodOperand c env sel m
    return .value (if x.mode == .type then methodFunction x.type t else t)

/-- The meaning of a selector: a name of a package, or a member. -/
def checkSelector (c : Checker) (env : Env) (x : Expr) (sel : Ident) : Check Operand := do
  match ← packageNamed? env x with
  | some path =>
    match ← qualified? c env path sel.name with
    | some o => objectOperand env sel o
    | none => return .invalid
  | none =>
    let o ← c.valueOrType env false x
    if o.isInvalid then return .invalid else memberOperand c env o sel

end Ripple.Go
