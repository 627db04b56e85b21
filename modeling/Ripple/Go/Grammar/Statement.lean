import Ripple.Go.Grammar.Expression

/-!
# Ripple.Go.Grammar.Statement

Statements and declarations.
-/

namespace Ripple.Go

open Source Parse

/-! ## declarations -/

/-- Specifications of one kind: one, or a group in brackets. -/
def specGroup (g : Grammar) (spec : Nat → Parse α) : Parse (List α) := do
  if ← eats "(" then
    let rec items : Nat → Nat → Parse (List α)
      | 0, _ => failure
      | n + 1, i => do
        if ← eats ")" then return []
        let s ← spec i
        check ((← sees ";") || (← sees ")"))
        discard (eats ";")
        return s :: (← items n (i + 1))
    items g.bound 0
  else return [← spec 0]

/-- The values of a declaration after an equals sign, if it has any. -/
def initialValues (g : Grammar) : Parse (List Expr) := do
  if ← eats "=" then g.exprs true else return []

/-- Gives constants without values those of the specification before. -/
def inheritValues (specs : List Spec) : List Spec :=
  (specs.foldl (fun (before, done) s =>
    match s with
    | .const names type values iota =>
      let (type, values) := if values.isEmpty then before else (type, values)
      ((type, values), done ++ [.const names type values iota])
    | s => (before, done ++ [s])) (((none : Option Expr), ([] : List Expr)), ([] : List Spec))).2

/-- Whether an expression can only be an element of a constraint. -/
def isTypeElement : Expr → Bool
  | .array _ _ | .struct _ | .func _ | .interface _ | .map _ _ | .chan _ _ => true
  | .binary _ x y => isTypeElement x || isTypeElement y
  | .unary op _ => op == "~"
  | .paren x => isTypeElement x
  | _ => false

/-- Whether an expression could be a name with a constraint; it is one if the constraint cannot be a
value, or if a comma follows and so `forced` holds. -/
def isNameWithConstraint (forced : Bool) : Expr → Bool
  | .binary "*" (.ident _) y => forced || isTypeElement y
  | .binary "|" x y => isNameWithConstraint (forced || isTypeElement y) x
  | .call (.ident _) [x] false _ _ => forced || isTypeElement x
  | _ => false

/-- Whether type parameters come next, and not the length of an array. -/
def startsTypeParameters (g : Grammar) : Parse Bool := do
  let tokens ← get
  let shape ← attempt do
    discard (eat "[")
    discard ident
    if ← sees "[" then return true
    set (tokens.drop 1)
    match ← g.expr true with
    | .ident _ => return !(← sees "]")
    | x => return isNameWithConstraint (← sees ",") x
  set tokens
  return shape.getD false

/-- The declaration of a type. -/
def typeSpec (g : Grammar) : Parse Spec := do
  let name ← ident
  let ps ← if ← startsTypeParameters g then typeParameters g else pure []
  let isAlias ← eats "="
  return .type name ps isAlias (← g.type)

/-- A declaration of constants, variables or types. -/
def declaration (g : Grammar) : Parse (List Spec) := do
  let t ← next
  let named (make : List Ident → Option Expr → List Expr → Spec) : Parse Spec := do
    let names ← sepBy1 ident "," g.bound
    let type ← attempt g.type
    return make names type (← initialValues g)
  if t.is "const" then
    return inheritValues (← specGroup g fun i => named fun ns t vs => .const ns t vs i)
  else if t.is "var" then specGroup g fun _ => named .var
  else
    check (t.is "type")
    specGroup g fun _ => typeSpec g

/-! ## simple statements -/

/-- The operators of assignments. -/
def assignMarks : List String :=
  [":=", "=", "+=", "-=", "*=", "/=", "%=", "&=", "|=", "^=", "<<=", ">>=", "&^="]

/-- An expression, a send, an increment or an assignment. -/
def simple (g : Grammar) (lit : Bool) : Parse Stmt := do
  let lhs ← g.exprs lit
  let t ← peek
  match t, lhs with
  | some t, x :: rest =>
    if assignMarks.any t.is then
      discard next
      return .assign t.text lhs (← g.exprs lit)
    else
      check rest.isEmpty
      if t.is "++" || t.is "--" then
        discard next
        return .incDec x
      else if t.is "<-" then
        discard next
        return .send x (← g.expr lit)
      else return .expr x
  | none, [x] => return .expr x
  | _, _ => failure

/-- A simple statement in the head of another one, if one stands there. -/
def headPart (g : Grammar) : Parse (Option Stmt) := attempt (simple g false)

/-! ## branches -/

/-- The part in front of the semicolon in the head of a statement, with the part after it. -/
def twoPartHead (g : Grammar) : Parse (Option Stmt × Option Stmt) := do
  let first ← headPart g
  if ← eats ";" then return (first, ← headPart g) else return (none, first)

/-- What follows `else`: another branch or a block. -/
def elseBranch (g : Grammar) : Parse (Option Stmt) := do
  if ← eats "else" then
    if ← sees "if" then some <$> g.statement else return some (.block (← block g))
  else return none

/-- A conditional statement. -/
def branch (g : Grammar) : Parse Stmt := do
  discard (eat "if")
  match ← twoPartHead g with
  | (init, some (.expr cond)) =>
    let body ← block g
    return .branch init cond body (← elseBranch g)
  | _ => failure

/-- The statements of a clause. -/
def clauseBody (g : Grammar) : Parse (List Stmt) := do
  discard (eat ":")
  let ss ← many (do
    if ← eats ";" then return none
    check !((← sees "case") || (← sees "default"))
    let s ← g.statement
    check ((← sees ";") || (← sees rightBrace))
    discard (eats ";")
    return some s) g.bound
  return ss.filterMap id

/-- A clause of a switch. -/
def switchClause (g : Grammar) : Parse Clause := do
  if ← eats "default" then return .mk none [] (← clauseBody g)
  discard (eat "case")
  let xs ← sepBy1 (g.expr true <|> g.type) "," g.bound
  return .mk none xs (← clauseBody g)

/-- A clause of a select statement. -/
def selectClause (g : Grammar) : Parse Clause := do
  if ← eats "default" then return .mk none [] (← clauseBody g)
  discard (eat "case")
  let comm ← simple g true
  return .mk (some comm) [] (← clauseBody g)

/-- A switch on a value or on a type. -/
def switch (g : Grammar) : Parse Stmt := do
  discard (eat "switch")
  let (init, tag) ← twoPartHead g
  let clauses ← braced g (switchClause g)
  match tag with
  | none => return .switch init none clauses
  | some (.expr (.assertion x none)) => return .typeSwitch init none x clauses
  | some (.assign ":=" [.ident id] [.assertion x none]) =>
    return .typeSwitch init (some id) x clauses
  | some (.expr x) => return .switch init (some x) clauses
  | some _ => failure

/-! ## loops -/

/-- A loop over a value. -/
def rangeLoop (g : Grammar) : Parse Stmt := do
  discard (eat "for")
  let targets : Parse (List Expr × Bool) := do
    let xs ← g.exprs false
    let t ← next
    check (t.is ":=" || t.is "=")
    return (xs, t.is ":=")
  let (xs, define) ← if ← sees "range" then pure ([], false) else targets
  discard (eat "range")
  let x ← g.expr false
  return .range xs[0]? xs[1]? define x (← block g)

/-- A loop with a condition, or with a start, a condition and a step. -/
def plainLoop (g : Grammar) : Parse Stmt := do
  discard (eat "for")
  let condition : Option Stmt → Parse (Option Expr)
    | none => pure none
    | some (.expr x) => pure (some x)
    | some _ => failure
  let first ← headPart g
  if ← eats ";" then
    let cond ← condition (← headPart g)
    discard (eat ";")
    let post ← headPart g
    return .loop first cond post (← block g)
  else
    let cond ← condition first
    return .loop none cond none (← block g)

/-! ## statements -/

/-- A statement with a label in front; after the label nothing need follow. -/
def labelled (g : Grammar) : Parse Stmt := do
  discard ident
  discard (eat ":")
  if (← sees ";") || (← sees rightBrace) then return .labelled (.block [])
  else return .labelled (← g.statement)

/-- A statement. -/
def statement (g : Grammar) : Parse Stmt := do
  let some t ← peek | failure
  if t.is leftBrace then return .block (← block g)
  else if t.is "if" then branch g
  else if t.is "for" then rangeLoop g <|> plainLoop g
  else if t.is "switch" then switch g
  else if t.is "select" then
    discard next
    return .select (← braced g (selectClause g))
  else if t.is "return" then
    discard next
    return .result ((← attempt (g.exprs true)).getD [])
  else if ["break", "continue", "goto", "fallthrough"].any t.is then
    discard next
    discard (attempt ident)
    return .jump
  else if t.is "go" || t.is "defer" then
    discard next
    return .start (← g.expr true)
  else if t.is "const" || t.is "var" || t.is "type" then return .decl (← declaration g)
  else labelled g <|> simple g true

/-! ## files -/

/-- The grammar of constructs whose parts follow a given grammar. -/
def Grammar.step (g : Grammar) : Grammar where
  bound := g.bound
  type := Go.type g
  unary := Go.unary g
  binary := Go.binary g
  element := Go.element g
  statement := Go.statement g

/-- The grammar of constructs up to a depth of nesting. -/
def Grammar.ofDepth (bound depth : Nat) : Grammar := depth.repeat Grammar.step (.bottom bound)

/-- One import. -/
def importSpec : Parse Import := do
  let name ← attempt (do
    let t ← next
    check (t.kind == .word || t.is ".")
    return t.text)
  let t ← next
  check (t.kind == .text)
  return ⟨name, literalText t.text⟩

/-- An import declaration. -/
def importDecl (g : Grammar) : Parse (List Import) := do
  discard (eat "import")
  let is ← specGroup g fun _ => importSpec
  discard (eat ";")
  return is

/-- A function or a method. -/
def funcDecl (g : Grammar) : Parse FuncDecl := do
  discard (eat "func")
  let receiver ← if ← sees "(" then List.head? <$> parameters g else pure none
  let name ← ident
  let typeParams ← attempt (typeParameters g)
  let type ← signature g (typeParams.getD [])
  let body ← if ← sees leftBrace then some <$> block g else pure none
  return ⟨receiver, name, type, body⟩

/-- A declaration at the top of a file. -/
def topDecl (g : Grammar) : Parse Decl := do
  let d ← if ← sees "func" then Decl.func <$> funcDecl g else Decl.specs <$> declaration g
  discard (eat ";")
  return d

/-- A source file. -/
def sourceFile (g : Grammar) (path name : String) : Parse SourceFile := do
  let start ← eat "package"
  let package ← ident
  discard (eat ";")
  let imports ← many (importDecl g) g.bound
  let decls ← many (topDecl g) g.bound
  check (← peek).isNone
  return ⟨path, name, none, g.bound, package, start.line, imports.flatten, decls⟩

/-- The tree of a Go source, if it is well formed.  A construct of `n` tokens has fewer than `4 * n`
constructs one inside the other. -/
def parse? (path source : String) : Option SourceFile :=
  let tokens := tokenize source
  let n := tokens.length + 1
  ((sourceFile (.ofDepth n (4 * n)) path (firstFile path source)).run tokens).map (·.1)

end Ripple.Go
