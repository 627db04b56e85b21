import Ripple.Go.Grammar.Basic

/-!
# Ripple.Go.Grammar.Expression

Expressions.  Wherever an expression may stand, a type may stand too: as an argument of a built-in
function, as a type argument or as the target of a conversion.
-/

namespace Ripple.Go

open Source Parse

/-- Statements in braces, with semicolons between them. -/
def block (g : Grammar) : Parse (List Stmt) := do
  let ss ← braced g (do
    if ← eats ";" then return none
    let s ← g.statement
    check ((← sees ";") || (← sees rightBrace))
    discard (eats ";")
    return some s)
  return ss.filterMap id

/-! ## literals -/

/-- The kind of a number. -/
def numberKind (text : String) : LiteralKind :=
  let cs := text.toList
  let hex := cs.take 2 == ['0', 'x'] || cs.take 2 == ['0', 'X']
  if cs.getLast? == some 'i' then .imaginary
  else if cs.any (· == '.') then .float
  else if hex then (if cs.any (fun c => c == 'p' || c == 'P') then .float else .int)
  else if cs.any (fun c => c == 'e' || c == 'E') then .float
  else .int

/-- A value of a composite literal: an expression, or values in braces. -/
def bareElement (g : Grammar) : Parse Expr := do
  if ← sees leftBrace then g.element else g.expr true

/-- A value of a composite literal, perhaps with a key. -/
def keyedElement (g : Grammar) : Parse Expr := do
  let x ← bareElement g
  if ← eats ":" then return .keyValue x (← bareElement g) else return x

/-- The values of a composite literal in their braces. -/
def literalElements (g : Grammar) : Parse (List Expr) := do
  discard (eat leftBrace)
  listUpTo g (keyedElement g) rightBrace

/-- A composite literal without a type. -/
def element (g : Grammar) : Parse Expr := do return .composite none (← literalElements g)

/-! ## operands -/

/-- A function literal, or a function type. -/
def functionOperand (g : Grammar) : Parse Expr := do
  discard (eat "func")
  let sig ← signature g []
  if ← sees leftBrace then return .funcLit sig (← block g) else return .func sig

/-- An operand without what is selected from it. -/
def operand (g : Grammar) : Parse Expr := do
  let some t ← peek | failure
  match t.kind with
  | .number => discard next; return .literal (numberKind t.text) t.text
  | .text => discard next; return .literal .string t.text
  | .character => discard next; return .literal .rune t.text
  | .word =>
    if t.is "func" then functionOperand g
    else if keywords.contains t.text then type g
    else return .ident (← ident)
  | .mark =>
    if t.is "(" then
      discard next
      let x ← g.expr true <|> g.type
      discard (eat ")")
      return .paren x
    else
      check (t.is "[" || t.is "<-")
      type g

/-- Whether a brace after an expression opens a composite literal of it. -/
def takesElements (lit : Bool) : Expr → Bool
  | .ident _ | .index _ _ => lit
  | .selector _ _ => lit
  | .array _ _ | .struct _ | .map _ _ => true
  | _ => false

/-- The bounds of a slice after its first colon. -/
def sliceBounds (g : Grammar) (x : Expr) (low : Option Expr) : Parse Expr := do
  discard (eat ":")
  let high ← attempt (g.expr true)
  let max ← if ← eats ":" then some <$> g.expr true else pure none
  discard (eat "]")
  return .slice x low high max

/-- What is selected from an expression, once. -/
def selection (g : Grammar) (lit : Bool) (x : Expr) : Parse Expr := do
  let t ← peek
  if t.any (·.is leftBrace) then
    check (takesElements lit x)
    return .composite (some x) (← literalElements g)
  let t ← next
  if t.is "." then
    if ← eats "(" then
      let type ← if ← eats "type" then pure none else some <$> g.type
      discard (eat ")")
      return .assertion x type
    else return .selector x (← ident)
  else if t.is "[" then
    if ← sees ":" then sliceBounds g x none
    else
      let first ← g.expr true <|> g.type
      if ← sees ":" then sliceBounds g x (some first)
      else
        discard (eats ",")
        return .index x (first :: (← listUpTo g (g.expr true <|> g.type) "]"))
  else
    check (t.is "(")
    let args ← many (do
      let a ← g.expr true <|> g.type
      let spread ← eats "..."
      check ((← sees ")") || (← sees ","))
      discard (eats ",")
      return (a, spread)) g.bound
    discard (eat ")")
    return .call x (args.map (·.1)) (args.any (·.2)) t.line t.index

/-- All that is selected from an expression. -/
def selections (g : Grammar) (lit : Bool) : Nat → Expr → Parse Expr
  | 0, x => pure x
  | n + 1, x => do
    match ← attempt (selection g lit x) with
    | some y => selections g lit n y
    | none => return x

/-- An operand under unary operators. -/
def unary (g : Grammar) (lit : Bool) : Parse Expr := do
  let some t ← peek | failure
  if t.is "*" then
    discard next
    return .star (← g.unary lit)
  else if ["+", "-", "!", "^", "&", "~"].any t.is || (t.is "<-" && !(← seesAhead 1 "chan")) then
    discard next
    return .unary t.text (← g.unary lit)
  else selections g lit g.bound (← operand g)

/-! ## operators -/

/-- The rank of an operator between two operands. -/
def rank? (t : Token) : Option Nat :=
  if t.kind != .mark then none
  else if t.text == "||" then some 1
  else if t.text == "&&" then some 2
  else if ["==", "!=", "<", "<=", ">", ">="].contains t.text then some 3
  else if ["+", "-", "|", "^"].contains t.text then some 4
  else if ["*", "/", "%", "<<", ">>", "&", "&^"].contains t.text then some 5
  else none

/-- The operators of at least a given rank after a first operand, and their operands. -/
def operations (g : Grammar) (lit : Bool) (least : Nat) : Nat → Expr → Parse Expr
  | 0, x => pure x
  | n + 1, x => do
    let some t ← peek | return x
    match rank? t with
    | none => return x
    | some r =>
      if r < least then return x
      discard next
      let y ← g.binary lit (r + 1)
      operations g lit least n (.binary t.text x y)

/-- Operands joined by operators of at least a given rank. -/
def binary (g : Grammar) (lit : Bool) (least : Nat) : Parse Expr := do
  operations g lit least g.bound (← g.unary lit)

end Ripple.Go
