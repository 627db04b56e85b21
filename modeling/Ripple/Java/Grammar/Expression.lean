import Ripple.Java.Grammar.Basic

/-!
# Ripple.Java.Grammar.Expression

Expressions.  Operators are not ranked: the operands of a chain of operators come out in source
order, which is all that the analysis looks at.
-/

namespace Ripple.Java

open Source Parse

/-- An expression that calls and accesses nothing. -/
def Tree.inert : Tree := .group .operation []

/-- Some operands as one tree. -/
def Tree.ofOperands : List Tree → Tree
  | [t] => t
  | ts => .group .operation ts

/-- Arguments in their brackets. -/
def arguments (g : Grammar) : Parse (List Tree) := do
  discard (eat "(")
  let args ← if ← sees ")" then pure [] else sepBy1 (g.expression true) "," g.bound
  discard (eat ")")
  return args

/-- Values in braces. -/
def arrayValue (g : Grammar) : Parse Tree := do
  discard (eat leftBrace)
  let parts ← many (do let v ← g.value; discard (eats ","); return v) g.bound
  discard (eats ",")
  discard (eat rightBrace)
  return .group .operation parts

/-- An initial value. -/
def value (g : Grammar) : Parse Tree := do
  if ← sees leftBrace then arrayValue g else g.expression true

/-! ## patterns -/

/-- A pattern of a type with a variable, or of a record with patterns of its components.  The name
of a record is kept only if it has no type arguments. -/
def pattern (g : Grammar) : Parse Tree := do
  let record : Parse Tree := do
    let names ← sepBy1 ident "." g.bound
    let generic ← attempt (typeArguments g)
    discard (eat "(")
    let parts ← if ← sees ")" then pure [] else sepBy1 g.pattern "," g.bound
    discard (eat ")")
    let names := if generic.isSome then [] else names
    return .group .pattern (names.map (fun t => .name .recordType t.text t.line) ++ parts)
  let binding : Parse Tree := do
    modifiers g
    type g
    let t ← ident
    return .name .patternVariable t.text t.line
  record <|> binding

/-! ## lambdas -/

/-- The parameters of a lambda, up to its arrow. -/
def lambdaParameters (g : Grammar) : Parse (List String) := do
  let names ←
    if ← eats "(" then
      let inferred : Parse (List String) := do
        let ts ← if ← sees ")" then pure [] else sepBy1 ident "," g.bound
        discard (eat ")")
        return ts.map (·.text)
      let typed : Parse (List String) := do
        let ps ← sepBy1 (formalParameter g) "," g.bound
        discard (eat ")")
        return ps.map (·.name)
      inferred <|> typed
    else
      pure [(← ident).text]
  discard (eat "->")
  return names

/-- A lambda. -/
def lambda (g : Grammar) : Parse Tree := do
  let names ← lambdaParameters g
  let body ← if ← sees leftBrace then g.statement else g.expression true
  return .lambda names body

/-! ## primaries -/

/-- A size or empty brackets of an array creation. -/
def arraySize (g : Grammar) : Parse (Option Tree) := do
  annotations g
  discard (eat "[")
  let size ← if ← sees "]" then pure none else some <$> g.expression true
  discard (eat "]")
  return size

/-- What follows `new`: an object with the arguments of its constructor and the body of an anonymous
class, or an array. -/
def creation (g : Grammar) (body : Parse (List Tree)) (outer : Option Tree) (line : Nat) :
    Parse Tree := do
  discard (eat "new")
  annotations g
  discard (attempt (typeArguments g))
  let type ← sourceOf (plainType g)
  if ← sees "(" then
    let args ← arguments g
    let members ← if ← sees leftBrace then body else pure []
    return .create outer type line args members
  else
    let sizes ← many (arraySize g) g.bound
    let parts ← if ← sees leftBrace then pure [← arrayValue g] else pure []
    return .group .operation (sizes.filterMap id ++ parts)

/-- A class literal, or a method reference of a type. -/
def typeExpression (g : Grammar) : Parse Tree := do
  type g
  if ← eats "::" then
    discard (attempt (typeArguments g))
    discard next
    return .methodReference none
  else
    discard (eat ".")
    discard (eat "class")
    return .inert

/-- Whether a token is a literal. -/
def isLiteral (t : Token) : Bool :=
  t.kind == .number || t.kind == .text || t.kind == .character || t.is "true" || t.is "false" ||
    t.is "null"

/-- An expression without what is selected from it. -/
def primary (g : Grammar) (body : Parse (List Tree)) : Parse Tree := do
  let some t ← peek | failure
  if isLiteral t || t.is "this" || t.is "super" then
    discard next
    return .inert
  else if t.is "(" then
    discard next
    let inner ← g.expression true
    discard (eat ")")
    return .paren inner
  else if t.is "new" then creation g body none t.line
  else if t.is "switch" then g.statement
  else
    let named : Parse Tree := do
      let t ← ident
      if ← sees "(" then return .invoke none t.text t.line (← arguments g)
      else return .name .use t.text t.line
    typeExpression g <|> named

/-- What is selected from an expression, once; `line` is where the expression starts. -/
def selection (g : Grammar) (body : Parse (List Tree)) (line : Nat) (object : Tree) :
    Parse Tree := do
  let t ← next
  if t.is "." then
    if ← sees "new" then creation g body (some object) line
    else if ← sees "this" then
      let t ← next
      return .select object "this" t.line
    else if ← eats "super" then
      if ← sees "(" then return .delegate false (some object) line (← arguments g)
      else return object
    else
      discard (attempt (typeArguments g))
      if ← eats "super" then return .delegate false (some object) line (← arguments g)
      let t ← ident
      if ← sees "(" then return .invoke (some object) t.text t.line (← arguments g)
      else return .select object t.text t.line
  else if t.is "[" then
    let index ← g.expression true
    discard (eat "]")
    return .group .operation [object, index]
  else if t.is "::" then
    discard (attempt (typeArguments g))
    discard next
    return .methodReference (some object)
  else
    check (t.is "++" || t.is "--")
    return .update object

/-- All that is selected from an expression. -/
def selections (g : Grammar) (body : Parse (List Tree)) (line : Nat) : Nat → Tree → Parse Tree
  | 0, object => pure object
  | n + 1, object => do
    match ← attempt (selection g body line object) with
    | some t => selections g body line n t
    | none => return object

/-! ## operators -/

/-- Whether a token can follow a cast to a type that is a name. -/
def followsCast (t : Token) : Bool :=
  isName t || isLiteral t || isPrimitive t || t.is "(" || t.is "!" || t.is "~" || t.is "this" ||
    t.is "super" || t.is "new" || t.is "switch"

/-- The type of a cast in its brackets. -/
def castType (g : Grammar) : Parse Unit := do
  discard (eat "(")
  let primitive := (← peek).any isPrimitive
  discard (sepBy1 (type g) "&" g.bound)
  discard (eat ")")
  let t ← peek
  let isSign (t : Token) : Bool := ["+", "-", "++", "--"].contains t.text
  check (t.any followsCast || (primitive && t.any isSign))

/-- An operand: a primary with its selections, under any unary operators and casts. -/
def operand (g : Grammar) (body : Parse (List Tree)) (arrow : Bool) : Parse Tree := do
  let some t ← peek | failure
  if ["+", "-", "!", "~"].any t.is then
    discard next
    g.operand arrow
  else if t.is "++" || t.is "--" then
    discard next
    return .update (← g.operand false)
  else if (← attempt (castType g)).isSome then
    let cast : Parse Tree := do
      if arrow then
        if let some l ← attempt (lambda g) then return l
      g.operand arrow
    return .group .operation [← cast]
  else
    selections g body t.line g.bound (← primary g body)

/-- The operators between two operands, other than those that start with `>`. -/
def binaryMarks : List String :=
  ["+", "-", "*", "/", "%", "&", "|", "^", "&&", "||", "==", "!=", "<", "<=", "<<"]

/-- The assignment operators, other than those that start with `>`. -/
def assignMarks : List String := ["=", "+=", "-=", "*=", "/=", "%=", "&=", "|=", "^=", "<<="]

/-- As many `>` as stand side by side, up to three. -/
def angles : Nat → Parse Unit
  | 0 => pure ()
  | n + 1 => do
    if (← peek).any fun t => t.is ">" && t.gap.isEmpty then
      discard next
      angles n

/-- An operator; true for an assignment. -/
def operator : Parse Bool := do
  let t ← next
  if t.is ">" then
    let shift := (← peek).any fun t => t.is ">" && t.gap.isEmpty
    angles 2
    if (← peek).any fun t => t.is "=" && t.gap.isEmpty then
      discard next
      return shift
    else return false
  else
    check (binaryMarks.any t.is || assignMarks.any t.is)
    return assignMarks.any t.is

/-- The right side of a type test. -/
def typeTest (g : Grammar) (value : Tree) : Parse Tree := do
  discard (eat "instanceof")
  let record : Parse Tree := do
    discard (eats "final")
    let p ← g.pattern
    match p with
    | .group _ _ => return .typeTest value none (some p)
    | _ => failure
  let plain : Parse Tree := do
    modifiers g
    type g
    let name ← attempt ident
    return .typeTest value (name.map (·.text)) none
  record <|> plain

/-- The rest of a chain of operators; `done` are the operands before, the latest first. -/
def chain (g : Grammar) (arrow : Bool) : Nat → List Tree → Parse Tree
  | 0, _ => failure
  | n + 1, done => do
    if ← sees "instanceof" then
      match done with
      | [] => failure
      | last :: before => chain g arrow n ((← typeTest g last) :: before)
    else if ← eats "?" then
      let yes ← g.expression true
      discard (eat ":")
      let no ← g.expression arrow
      return .ofOperands (no :: yes :: done).reverse
    else
      match ← attempt operator with
      | some true => return .assign (.ofOperands done.reverse) (← g.expression arrow)
      | some false => chain g arrow n ((← g.operand arrow) :: done)
      | none => return .ofOperands done.reverse

/-- An expression. -/
def expression (g : Grammar) (arrow : Bool) : Parse Tree := do
  if arrow then
    if let some l ← attempt (lambda g) then return l
  chain g arrow g.bound [← g.operand arrow]

end Ripple.Java
