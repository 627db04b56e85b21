import Ripple.Go.Infer
import Ripple.Go.Resolution

/-!
# Ripple.Go.Check.Basic

What the analysis finds out about the names of files, and the record `Checker` through which the
rules for types, expressions, statements and declarations refer to one another.  An expression that
has no meaning does not stop the analysis: what depends on it is invalid, and the rest is resolved.
-/

namespace Ripple.Go

/-! ## progress -/

/-- Something that is checked when the declarations of a package are known. -/
inductive Pending where
  /-- A function body, with the place inside the function. -/
  | body (env : Env) (stmts : List Stmt)
  /-- Whether a declared type contains itself. -/
  | containment (r : DeclRef)

/-- How far the analysis has come. -/
structure Progress where
  world : World
  /-- The resolutions by the paths of files. -/
  files : Std.HashMap String Resolution
  /-- The declarations whose meaning is being worked out, the innermost first. -/
  path : List DeclRef
  /-- The expression at hand calls a function or receives from a channel. -/
  called : Bool
  pending : Array Pending

/-- The start, in a world. -/
def Progress.start (w : World) : Progress := ⟨w, ∅, [], false, #[]⟩

/-- A computation that resolves names. -/
abbrev Check := StateM Progress

/-- What is known of declarations. -/
def world : Check World := return (← get).world

/-- Changes what is known of declarations. -/
def modifyWorld (f : World → World) : Check Unit := modify fun p => { p with world := f p.world }

/-- Changes what is known of the names of the file of a place. -/
def modifyFile (env : Env) (f : Resolution → Resolution) : Check Unit :=
  modify fun p =>
    let files := p.files.alter env.file.path fun r => some (f (r.getD .empty))
    { p with files }

/-- Notes that a name stands for a function of the project. -/
def noteFunction (env : Env) (id : Ident) : Option String → Check Unit
  | some s => modifyFile env fun r => { r with functions := r.functions.insert id.index s }
  | none => pure ()

/-- Drops the note that a name stands for a function. -/
def dropFunction (env : Env) (id : Ident) : Check Unit :=
  modifyFile env fun r => { r with functions := r.functions.erase id.index }

/-- Notes that a name stands for a field of a package of the project. -/
def noteField (env : Env) (id : Ident) (package : String) : Check Unit := do
  if (← world).owns package then
    modifyFile env fun r => { r with fields := r.fields.insert id.index }

/-- Puts something off. -/
def putOff (x : Pending) : Check Unit := modify fun p => { p with pending := p.pending.push x }

/-- Notes a call or a receipt. -/
def noteCall : Check Unit := modify fun p => { p with called := true }

/-- Runs a computation and says whether it notes a call; notes from before stay. -/
def withCalls (x : Check α) : Check (α × Bool) := do
  let before := (← get).called
  modify fun p => { p with called := false }
  let a ← x
  let during := (← get).called
  modify fun p => { p with called := before }
  return (a, during)

/-! ## rules -/

/-- What the surroundings of an expression offer it. -/
structure Wanted where
  /-- The type of a composite literal that has none of its own. -/
  hint : Option Ty
  /-- The type of the variable to which the value is assigned. -/
  target : Option Ty
  /-- A generic function or type may stay without its type arguments. -/
  generic : Bool
  deriving Inhabited

/-- Surroundings that offer nothing. -/
def Wanted.nothing : Wanted := ⟨none, none, false⟩

/-- Rules for the parts of a construct. -/
structure Checker where
  /-- The type that an expression denotes, perhaps without its type arguments. -/
  type : Env → Expr → Check Ty
  expr : Env → Wanted → Expr → Check Operand
  /-- Checks a statement and gives the place after it. -/
  stmt : Env → Stmt → Check Env
  /-- Works out what a declaration means, if that is not known; the flag says whether a list of type
  parameters asks for it. -/
  declare : Bool → DeclRef → Check Unit

/-- The rules for parts nested too deeply. -/
def Checker.bottom : Checker where
  type _ _ := pure .invalid
  expr _ _ _ := pure .invalid
  stmt env _ := pure env
  declare _ _ := pure ()

namespace Checker

/-- The value of an expression. -/
def value (c : Checker) (env : Env) (e : Expr) : Check Operand :=
  return (← c.expr env .nothing e).asValue

/-- The value of an expression that is assigned to a variable of a type. -/
def valueFor (c : Checker) (env : Env) (target : Option Ty) (e : Expr) : Check Operand :=
  return (← c.expr env ⟨none, target, false⟩ e).asValue

/-- The value of an expression inside a composite literal. -/
def element (c : Checker) (env : Env) (hint : Ty) (e : Expr) : Check Operand :=
  return (← c.expr env ⟨some hint, none, false⟩ e).asValue

/-- The value or the type that an expression stands for. -/
def valueOrType (c : Checker) (env : Env) (generic : Bool) (e : Expr) : Check Operand :=
  return (← c.expr env ⟨none, none, generic⟩ e).single

/-- Resolves the names in an expression that has no use. -/
def use (c : Checker) (env : Env) (e : Expr) : Check Operand := do
  match e.unparen with
  | .ident id =>
    if id.name == "_" then return .invalid else c.valueOrType env true (.ident id)
  | _ => c.expr env ⟨none, none, true⟩ e

/-- Resolves the names in some expressions. -/
def useAll (c : Checker) (env : Env) (es : List Expr) : Check Unit :=
  es.forM fun e => discard (c.use env e)

/-- The type that an expression denotes, with its type arguments. -/
def fullType (c : Checker) (env : Env) (e : Expr) : Check Ty := do
  let t ← c.type env e
  return if (← world).isGeneric t then .invalid else t

/-- Checks statements one after the other. -/
def stmts (c : Checker) (env : Env) (ss : List Stmt) : Check Env := ss.foldlM c.stmt env

/-- Checks statements in a block of their own. -/
def block (c : Checker) (env : Env) (ss : List Stmt) : Check Unit := discard (c.stmts env.push ss)

end Checker

end Ripple.Go
