import Ripple.Go.Token
import Ripple.Go.Tree

/-!
# Ripple.Go.Grammar.Basic

Names, types and signatures, and the record `Grammar` through which the productions refer to one
another: a production takes the grammar of its parts, so none is recursive by itself.
-/

namespace Ripple.Go

open Source Parse

/-- Parsers for the parts of a production. -/
structure Grammar where
  /-- More than the number of items any list can have. -/
  bound : Nat
  type : Parse Expr
  /-- An operand under unary operators.  The flag says whether a brace after a type name opens a
  composite literal; in the head of a statement it opens the body. -/
  unary : Bool → Parse Expr
  /-- Operands joined by operators of at least a given rank. -/
  binary : Bool → Nat → Parse Expr
  /-- A value of a composite literal, whose type may be left out. -/
  element : Parse Expr
  statement : Parse Stmt

/-- The grammar of parts nested too deeply. -/
def Grammar.bottom (bound : Nat) : Grammar where
  bound
  type := failure
  unary _ := failure
  binary _ _ := failure
  element := failure
  statement := failure

/-- An expression; a brace after a type name opens a composite literal if `lit` holds. -/
def Grammar.expr (g : Grammar) (lit : Bool) : Parse Expr := g.binary lit 1

/-- Expressions with commas between them. -/
def Grammar.exprs (g : Grammar) (lit : Bool) : Parse (List Expr) := sepBy1 (g.expr lit) "," g.bound

/-- A name. -/
def ident : Parse Ident := do
  let t ← next
  check (t.kind == .word && !keywords.contains t.text)
  return ⟨t.text, t.line, t.index⟩

/-- The line of the next token. -/
def lineHere : Parse Nat := do return ((← peek).map (·.line)).getD 0

/-- Whether the next token closes a list. -/
def closes : Parse Bool := do
  return (← sees ")") || (← sees "]") || (← sees rightBrace)

/-- Items with commas between them and perhaps after the last, up to a delimiter. -/
def listUpTo (g : Grammar) (p : Parse α) (close : String) : Parse (List α) := do
  let xs ← many (do
    let x ← p
    check ((← sees close) || (← sees ","))
    discard (eats ",")
    return x) g.bound
  discard (eat close)
  return xs

/-! ## fields -/

/-- The names at the front of some parameters that have the type of a later one.  A parameter
without a type of its own is a name in disguise. -/
def groupFields (entries : List (Option Ident × Expr × Nat)) : List Field :=
  if entries.any (·.1.isSome) then
    (entries.foldl (fun (pending, done) (name, type, line) =>
      match name, type with
      | none, .ident id => (pending ++ [id], done)
      | none, _ => (pending, done ++ [.mk [] type none line])
      | some id, _ =>
        let start := (pending.head?.map (·.line)).getD id.line
        (([] : List Ident), done ++ [.mk (pending ++ [id]) type none start]))
      (([] : List Ident), ([] : List Field))).2
  else entries.map fun (_, type, line) => .mk [] type none line

/-- The type of a parameter, which may take any number of arguments. -/
def parameterType (g : Grammar) : Parse Expr := do
  if ← eats "..." then return .ellipsis (some (← g.type)) else g.type

/-- A parameter: a name with a type, or one of them. -/
def parameter (g : Grammar) : Parse (Option Ident × Expr × Nat) := do
  let line ← lineHere
  let named : Parse (Option Ident × Expr × Nat) := do
    let id ← ident
    let t ← parameterType g
    check ((← sees ",") || (← closes))
    return (some id, t, line)
  named <|> (do return (none, ← parameterType g, line))

/-- Parameters in their brackets. -/
def parameters (g : Grammar) : Parse (List Field) := do
  discard (eat "(")
  return groupFields (← listUpTo g (parameter g) ")")

/-- The results of a function, if it has any. -/
def results (g : Grammar) : Parse (List Field) := do
  if ← sees "(" then parameters g
  else
    let line ← lineHere
    match ← attempt g.type with
    | some t => return [.mk [] t none line]
    | none => return []

/-- The parameters and results of a function. -/
def signature (g : Grammar) (typeParams : List Field) : Parse FuncType := do
  let ps ← parameters g
  return .mk typeParams ps (← results g)

/-! ## constraints -/

/-- A type, or with a tilde the types that have it as their base. -/
def constraintTerm (g : Grammar) : Parse Expr := do
  if ← eats "~" then return .unary "~" (← g.type) else g.type

/-- A union of types. -/
def constraint (g : Grammar) : Parse Expr := do
  let first ← constraintTerm g
  let rest ← many (do discard (eat "|"); constraintTerm g) g.bound
  return rest.foldl (Expr.binary "|") first

/-- Type parameters in their brackets, each group of names with its constraint. -/
def typeParameters (g : Grammar) : Parse (List Field) := do
  let entry : Parse (Option Ident × Expr × Nat) := do
    let id ← ident
    match ← attempt (constraint g) with
    | some c => return (some id, c, id.line)
    | none => return (none, .ident id, id.line)
  discard (eat "[")
  let entries ← listUpTo g entry "]"
  check (entries.getLast?.any (·.1.isSome))
  return groupFields entries

/-! ## types -/

/-- The text of a literal string in double quotes or between backquotes. -/
def literalText (text : String) : String :=
  let rec plain : List Char → List Char
    | '\\' :: 'n' :: rest => '\n' :: plain rest
    | '\\' :: 't' :: rest => '\t' :: plain rest
    | '\\' :: 'r' :: rest => '\r' :: plain rest
    | '\\' :: c :: rest => c :: plain rest
    | c :: rest => c :: plain rest
    | [] => []
  let inner := (text.toList.drop 1).dropLast
  if text.toList.head? == some '"' then String.ofList (plain inner)
  else String.ofList (inner.filter (· != '\r'))

/-- The tag of a field as it is written, if it has one. -/
def fieldTag : Parse (Option String) := do
  match ← peek with
  | some t => if t.kind == .text then do discard next; return some t.text else return none
  | none => return none

/-- A field of a struct: names with a type, or an embedded type. -/
def structField (g : Grammar) : Parse Field := do
  let line ← lineHere
  let finish (names : List Ident) (t : Expr) : Parse Field := do
    let tag ← fieldTag
    check ((← sees ";") || (← sees rightBrace))
    discard (eats ";")
    return .mk names t tag line
  let named : Parse Field := do
    let names ← sepBy1 ident "," g.bound
    finish names (← g.type)
  let embedded : Parse Field := do
    finish [] (← g.type)
  named <|> embedded

/-- An element of an interface: a method, or an embedded constraint. -/
def interfaceElement (g : Grammar) : Parse Field := do
  let line ← lineHere
  let method : Parse Field := do
    let id ← ident
    check (← sees "(")
    return .mk [id] (.func (← signature g [])) none line
  let embedded : Parse Field := do
    return .mk [] (← constraint g) none line
  let f ← method <|> embedded
  check ((← sees ";") || (← sees rightBrace))
  discard (eats ";")
  return f

/-- Items in braces. -/
def braced (g : Grammar) (p : Parse α) : Parse (List α) := do
  discard (eat leftBrace)
  let xs ← many p g.bound
  discard (eat rightBrace)
  return xs

/-- A type name with its type arguments. -/
def typeName (g : Grammar) : Parse Expr := do
  let id ← ident
  let name ← if ← eats "." then pure (Expr.selector (.ident id) (← ident)) else pure (.ident id)
  let args ← attempt (do
    discard (eat "[")
    let ts ← listUpTo g g.type "]"
    check !ts.isEmpty
    return ts)
  return match args with
    | some ts => .index name ts
    | none => name

/-- A type that starts with a keyword or an operator. -/
def typeLiteral (g : Grammar) : Parse Expr := do
  let t ← next
  if t.is "*" then return .star (← g.type)
  else if t.is "[" then
    if ← eats "]" then return .array none (← g.type)
    let length ← if ← eats "..." then pure (Expr.ellipsis none) else g.expr true
    discard (eat "]")
    return .array (some length) (← g.type)
  else if t.is "map" then
    discard (eat "[")
    let key ← g.type
    discard (eat "]")
    return .map key (← g.type)
  else if t.is "chan" then
    let dir := if ← eats "<-" then ChanDir.send else .both
    return .chan dir (← g.type)
  else if t.is "<-" then
    discard (eat "chan")
    return .chan .receive (← g.type)
  else if t.is "func" then return .func (← signature g [])
  else if t.is "struct" then return .struct (← braced g (structField g))
  else
    check (t.is "interface")
    return .interface (← braced g (interfaceElement g))

/-- A type. -/
def type (g : Grammar) : Parse Expr := do
  if ← eats "(" then
    let t ← g.type
    discard (eat ")")
    return .paren t
  else typeName g <|> typeLiteral g

end Ripple.Go
