import Ripple.Go.Check.Stmt

/-!
# Ripple.Go.Check.Func

The types of declared functions and methods.
-/

namespace Ripple.Go

/-- A receiver type taken apart: whether it is a pointer, the named type, and the names of its type
parameters. -/
def unpackReceiver (x : Expr) : Bool × Expr × List Expr :=
  let split : Expr → Expr × List Expr
    | .index y ps => (y, ps)
    | y => (y, [])
  match x.unparen with
  | .star y => (true, split y.unparen)
  | y => (false, split y)

/-- The references of the type parameters that a receiver names. -/
def receiverParamRefs (env : Env) (ps : List Expr) : List TypeRef :=
  ps.zipIdx.map fun
    | (.ident id, _) => typeRef env id
    | (_, i) => typeRef env ⟨"_", 0, i⟩

/-- A type without the pointers in front of it. -/
def Ty.unpointed : Ty → Ty
  | .pointer t => t.unpointed
  | t => t

/-- Whether aliases lead from a type to one with type arguments. -/
def World.leadsToInstance (w : World) : Nat → Ty → Bool
  | 0, _ => false
  | fuel + 1, t =>
    match t.unpointed with
    | .synonym ref args =>
      let next := (w.expand ref args).unpointed
      match next with
      | .named _ (_ :: _) | .synonym _ (_ :: _) => true
      | next => w.isGeneric next || w.leadsToInstance fuel next
    | _ => false

/-- The receiver of a method whose type has no type parameters. -/
def plainReceiver (c : Checker) (env : Env) (x : Expr) : Check Receiver := do
  let t ← c.fullType env x
  let w ← world
  return ⟨if w.leadsToInstance w.depth t then .invalid else t, []⟩

/-- The receiver of a method of a generic type, with the parameters of that type under names of its
own; they have the bounds of those. -/
def genericReceiver (c : Checker) (env : Env) (pointer : Bool) (base : Expr) (ps : List Expr) :
    Check Receiver := do
  let t ← c.type env base
  let refs := receiverParamRefs env ps
  let w ← world
  match w.isGeneric t, t with
  | true, .named ref _ =>
    let formal := ((w.types[ref]?).map (·.params)).getD []
    if formal.length = refs.length then
      let σ := bindParams formal (refs.map .param)
      let bounds := (formal.zip refs).map fun (f, r) => (r, (w.bound f).subst σ)
      modifyWorld fun w => { w with bounds := bounds.foldl (fun m (r, t) => m.insert r t) w.bounds }
    let t := Ty.named ref (refs.map .param)
    return ⟨if pointer then .pointer t else t, refs⟩
  | _, _ => return ⟨.invalid, refs⟩

/-- A function at its place. -/
structure FuncScope where
  /-- The place inside the function, with its parameters. -/
  env : Env
  type : Ty
  receiver : Option Receiver

/-- The place and the type of a function. -/
def checkFunc (c : Checker) (top : Env) (f : FuncDecl) : Check FuncScope := do
  let env := top.push
  match f.receiver with
  | some (.mk names x _ _) =>
    let (pointer, base, ps) := unpackReceiver x
    let receiver ←
      if ps.isEmpty then plainReceiver c env x else genericReceiver c env pointer base ps
    let env := declareTypeParams env receiver.params
    let type ← functionType c env [] f.type
    let inner := env.insideFunction type
    let name := (names.head?.map (·.name)).getD ""
    return ⟨inner.declare name (.variable receiver.type), type, some receiver⟩
  | none =>
    let refs := typeParamRefs env f.type.typeParams
    let env := declareTypeParams env refs
    checkBounds c env f.type.typeParams
    let type ← functionType c env refs f.type
    return ⟨env.insideFunction type, type, none⟩

end Ripple.Go
