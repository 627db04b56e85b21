import Ripple.Java.Grammar.Expression

/-!
# Ripple.Java.Grammar.Statement

Statements, among them local declarations.  A switch is the same tree as a statement and as an
expression.
-/

namespace Ripple.Java

open Source Parse

/-- Statements in braces. -/
def block (g : Grammar) : Parse Tree := do
  discard (eat leftBrace)
  let parts ← many g.statement g.bound
  discard (eat rightBrace)
  return .group .block parts

/-- A condition in its brackets. -/
def condition (g : Grammar) : Parse Tree := do
  discard (eat "(")
  let t ← g.expression true
  discard (eat ")")
  return .paren t

/-- A variable of a declaration. -/
def declarator (g : Grammar) : Parse Declarator := do
  let t ← ident
  dimensions g
  let v ← if ← eats "=" then some <$> g.value else pure none
  return ⟨t.text, t.line, v⟩

/-- A declared variable as a part of a body. -/
def Declarator.tree (d : Declarator) : Tree := .variable .declarator d.name d.value

/-- The declaration of local variables, without the end of the statement. -/
def localVariables (g : Grammar) : Parse Tree := do
  modifiers g
  type g
  let ds ← sepBy1 (declarator g) "," g.bound
  check (← sees ";")
  return .group .statement (ds.map Declarator.tree)

/-! ## loops -/

/-- The head and body of a loop over a collection. -/
def forEachLoop (g : Grammar) : Parse Tree := do
  discard (eat "for")
  discard (eat "(")
  modifiers g
  type g
  let t ← ident
  dimensions g
  discard (eat ":")
  let v ← g.expression true
  discard (eat ")")
  return .group .statement [.variable .forEach t.text (some v), ← g.statement]

/-- Expressions with commas between them, up to a delimiter. -/
def expressionsUpTo (g : Grammar) (close : String) : Parse (List Tree) := do
  let ts ← if ← sees close then pure [] else sepBy1 (g.expression true) "," g.bound
  discard (eat close)
  return ts

/-- A loop with a start, a condition and a step. -/
def forLoop (g : Grammar) : Parse Tree := do
  discard (eat "for")
  discard (eat "(")
  let declared : Parse (List Tree) := do
    let t ← localVariables g
    discard (eat ";")
    return [t]
  let start ← declared <|> expressionsUpTo g ";"
  let test ← expressionsUpTo g ";"
  let step ← expressionsUpTo g ")"
  return .group .statement (start ++ test ++ step ++ [← g.statement])

/-! ## switches -/

/-- A label of a switch, up to its arrow or colon. -/
def switchLabel (g : Grammar) : Parse Tree := do
  if ← eats "default" then return .group .pattern []
  discard (eat "case")
  let patterns : Parse (List Tree) := do
    let ts ← sepBy1 g.pattern "," g.bound
    check ((← sees "->") || (← sees ":") || (← sees "when"))
    return ts
  let constant : Parse Tree := do
    if ← eats "default" then return .inert else g.expression false
  let parts ← patterns <|> sepBy1 constant "," g.bound
  let guarded ← if ← eats "when" then pure [← g.expression false] else pure []
  return .group .pattern (parts ++ guarded)

/-- A label of a switch with what it leads to. -/
def switchCase (g : Grammar) : Parse Tree := do
  let label ← switchLabel g
  if ← eats "->" then
    return .group .statement [label, ← g.statement]
  else
    discard (eat ":")
    return .group .statement (label :: (← many (do check !(← sees "case"); g.statement) g.bound))

/-- A switch. -/
def switch (g : Grammar) : Parse Tree := do
  discard (eat "switch")
  let subject ← condition g
  discard (eat leftBrace)
  let cases ← many (switchCase g) g.bound
  discard (eat rightBrace)
  return .group .operation (subject :: cases)

/-! ## exceptions -/

/-- A resource of a try statement: a declared one, or an expression. -/
def tryResource (g : Grammar) : Parse Tree := do
  let declared : Parse Tree := do
    modifiers g
    type g
    let t ← ident
    discard (eat "=")
    return .variable (.resource t.line) t.text (some (← g.expression true))
  declared <|> g.expression true

/-- A catch clause. -/
def catchClause (g : Grammar) : Parse Tree := do
  discard (eat "catch")
  discard (eat "(")
  modifiers g
  discard (sepBy1 (type g) "|" g.bound)
  let t ← ident
  dimensions g
  discard (eat ")")
  return .group .statement [.variable .catchClause t.text none, ← block g]

/-- A try statement. -/
def tryStatement (g : Grammar) : Parse Tree := do
  discard (eat "try")
  let resources ←
    if ← eats "(" then
      let rs ← many (do let r ← tryResource g; discard (eats ";"); return r) g.bound
      discard (eat ")")
      pure rs
    else pure []
  let body ← block g
  let catches ← many (catchClause g) g.bound
  let last ← if ← eats "finally" then pure [← block g] else pure []
  return .group .statement (resources ++ [body] ++ catches ++ last)

/-! ## simple statements -/

/-- A call of another constructor. -/
def delegation (g : Grammar) : Parse Tree := do
  let line := ((← peek).map (·.line)).getD 0
  discard (attempt (typeArguments g))
  let t ← next
  check (t.is "this" || t.is "super")
  let args ← arguments g
  discard (eat ";")
  return .delegate (t.is "this") none line args

/-- A statement that starts with a keyword and holds expressions up to its end. -/
def keywordStatement (g : Grammar) (separator : String) : Parse Tree := do
  discard next
  let parts ← if ← sees ";" then pure [] else sepBy1 (g.expression true) separator g.bound
  discard (eat ";")
  return .group .statement parts

/-- A jump out of or to the head of a statement. -/
def jump : Parse Tree := do
  discard next
  discard (attempt ident)
  discard (eat ";")
  return .jump

/-- A statement with a label in front. -/
def labelled (g : Grammar) : Parse Tree := do
  let t ← ident
  discard (eat ":")
  return .labelled t.text (← g.statement)

/-- A statement that starts with neither a keyword nor a label. -/
def otherStatement (g : Grammar) : Parse Tree := do
  let nested : Parse Tree := do return (← g.typeDecl).tree
  let declared : Parse Tree := do
    let t ← localVariables g
    discard (eat ";")
    return t
  let plain : Parse Tree := do
    let t ← g.expression true
    discard (eat ";")
    return .group .statement [t]
  nested <|> labelled g <|> declared <|> delegation g <|> plain

/-- A statement. -/
def statement (g : Grammar) : Parse Tree := do
  let some t ← peek | failure
  if t.is leftBrace then block g
  else if t.is ";" then
    discard next
    return .group .statement []
  else if t.is "if" then
    discard next
    let c ← condition g
    let yes ← g.statement
    let no ← if ← eats "else" then pure [← g.statement] else pure []
    return .group .statement (c :: yes :: no)
  else if t.is "while" then
    discard next
    let c ← condition g
    return .group .statement [c, ← g.statement]
  else if t.is "do" then
    discard next
    let body ← g.statement
    discard (eat "while")
    let c ← condition g
    discard (eat ";")
    return .group .statement [body, c]
  else if t.is "for" then forEachLoop g <|> forLoop g
  else if t.is "switch" then switch g
  else if t.is "try" then tryStatement g
  else if t.is "synchronized" then
    discard next
    let c ← condition g
    return .group .statement [c, ← block g]
  else if t.is "return" || t.is "throw" then keywordStatement g ","
  else if t.is "assert" then keywordStatement g ":"
  else if t.is "break" || t.is "continue" then jump
  else if t.is "yield" then keywordStatement g "," <|> otherStatement g
  else otherStatement g

end Ripple.Java
