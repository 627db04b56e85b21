import Ripple.Go.Check.Func

/-!
# Ripple.Go.Check.Declare

What the declarations at the top of packages mean.  A declaration is worked out when it is needed
first; one that leads back to itself is looked at again while it is being worked out, and then it is
allowed or has no meaning.
-/

namespace Ripple.Go

/-- Enters what a declaration stands for. -/
def enterObject (r : DeclRef) (o : Object) : Check Unit :=
  modifyWorld fun w => { w with objects := w.objects.insert r o }

/-- Enters what a declaration stands for, unless something was entered already. -/
def enterNewObject (r : DeclRef) (o : Object) : Check Unit :=
  modifyWorld fun w => { w with objects := w.objects.insertIfNew r o }

/-! ## circles -/

/-- Whether a declaration declares a constant or a variable. -/
def DeclBody.isValue : DeclBody → Bool
  | .const .. | .var .. => true
  | _ => false

/-- Whether declarations may lead back to the first of them.  Constants and variables among
themselves may, since their types decide; types and functions may if one of them is a new type; and
none may through the type parameters of a generic type. -/
def World.isAllowedCircle (w : World) (inTypeParams : Bool) (circle : List DeclRef) : Bool :=
  let types := circle.filterMap fun (r : DeclRef) =>
    match w.objects[r]? with
    | some (.type t) => some t
    | _ => none
  let values := circle.countP fun r => (w.declaration? r).any (·.body.isValue)
  let isNew (t : Ty) : Bool := match t with
    | .named _ _ => true
    | _ => false
  if inTypeParams && types.any w.isGeneric then false
  else values == circle.length || (values == 0 && types.any isNew)

/-- Looks at a declaration again that is being worked out. -/
def checkCircle (inTypeParams : Bool) (r : DeclRef) : Check Unit := do
  let p ← get
  let circle := p.path.takeWhile (· != r) ++ [r]
  let allowed := p.world.isAllowedCircle inTypeParams circle
  match (p.world.declaration? r).map Declaration.body with
  | some (.const ..) =>
    if allowed then enterNewObject r (.const .invalid .unknown)
    else enterObject r (.const .invalid .unknown)
  | some (.var ..) =>
    if allowed then enterNewObject r (.variable .invalid) else enterObject r (.variable .invalid)
  | some (.type ..) => if !allowed then enterObject r (.type .invalid)
  | _ => pure ()

/-! ## declarations -/

/-- Declares a constant.  One that was needed for its own type or value stays without a type. -/
def declareConst (c : Checker) (env : Env) (r : DeclRef) (type value : Option Expr) (iota : Nat) :
    Check Unit := do
  let (t, v) ← constantParts c env type value iota fun t => enterObject r (.const t .unknown)
  match (← world).objects[r]? with
  | some (.const .invalid _) => pure ()
  | _ => enterObject r (.const t v)

/-- Declares variables that share a value; those that have a type by now keep it. -/
def declareVars (c : Checker) (env : Env) (r : DeclRef) (group : List DeclRef)
    (type value : Option Expr) : Check Unit := do
  let declared ← type.mapM (c.fullType env)
  declared.forM fun t => enterObject r (.variable t)
  match value, group with
  | none, _ => enterNewObject r (.variable .invalid)
  | some e, _ :: _ :: _ =>
    declared.forM fun t => group.forM fun g => enterObject g (.variable t)
    let types ← initialTypes c env (group.map fun _ => declared) [e]
    (group.zip types).forM fun (g, t) => enterNewObject g (.variable t)
  | some e, _ =>
    let x ← c.valueFor env declared e
    enterNewObject r (.variable ((← world).initialType x declared))

/-- Declares a type. -/
def declareType (c : Checker) (env : Env) (r : DeclRef) (name : Ident) (typeParams : List Field)
    (isAlias : Bool) (type : Expr) : Check Unit := do
  let ref := typeRef env name
  enterObject r (.type (declaredType ref isAlias))
  putOff (.containment r)
  checkTypeDeclaration c env ref typeParams isAlias type

/-- Declares a function or a method.  Its body is put off. -/
def declareFunc (c : Checker) (env : Env) (r : DeclRef) (f : FuncDecl) : Check Unit := do
  enterObject r (.func (.func [] [] [] false [] []) none none)
  let scope ← checkFunc c env f
  let home := env.package.path
  let own := (← world).owns home
  let signature := if own then some (declaredSignature home f.name.name scope.type) else none
  enterObject r (.func scope.type signature scope.receiver)
  f.body.forM fun body => putOff (.body scope.env body)

/-- Works out what a declaration means. -/
def declareBody (c : Checker) (r : DeclRef) (package : PackageRef) (d : Declaration) : Check Unit :=
  let env := Env.ofFile package d.file
  match d.body with
  | .const _ type value iota => declareConst c env r type value iota
  | .var _ group type value =>
    declareVars c env r (group.map fun n => ⟨r.package, n⟩) type value
  | .type name typeParams isAlias type => declareType c env r name typeParams isAlias type
  | .func f => declareFunc c env r f

/-- Works out what a declaration means, if that is not known. -/
def checkDeclaration (c : Checker) (inTypeParams : Bool) (r : DeclRef) : Check Unit := do
  let p ← get
  if p.path.contains r then checkCircle inTypeParams r
  else if p.world.objects.contains r then return
  else
    match p.world.packages[r.package]?, p.world.declaration? r with
    | some scope, some d =>
      modify fun p => { p with path := r :: p.path }
      discard (withCalls (declareBody c r scope.ref d))
      modify fun p => { p with path := p.path.drop 1 }
    | _, _ => return

/-- The rules for constructs whose parts follow given rules. -/
def Checker.step (c : Checker) : Checker where
  type := checkType c
  expr := checkExpr c
  stmt := checkStmt c
  declare := checkDeclaration c

/-- The rules for constructs up to a depth of nesting. -/
def Checker.ofDepth (depth : Nat) : Checker := depth.repeat Checker.step .bottom

end Ripple.Go
