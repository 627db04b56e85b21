import Ripple.Java.Grammar.Statement

/-!
# Ripple.Java.Grammar.Declaration

Types and their members, and compilation units.  `Grammar.ofDepth` closes the productions over one
another.
-/

namespace Ripple.Java

open Source Parse

/-- The line of the next token. -/
def lineHere : Parse Nat := do return ((← peek).map (·.line)).getD 0

/-! ## members -/

/-- What follows the name of a method: parameters, exceptions and body. -/
def methodTail (g : Grammar) (name : Token) (line : Nat) (returnType : String) : Parse Method := do
  let (receiver, parameters) ← formalParameters g
  dimensions g
  if ← eats "throws" then typeList g
  let body ← if ← sees leftBrace then some <$> g.statement else do discard (eat ";"); pure none
  return ⟨name.text, name.line, line, returnType, parameters, receiver, body⟩

/-- The default of an element of an annotation type: an annotation, values in braces or an
expression. -/
def elementValue (g : Grammar) : Parse Tree := do
  let single : Parse Tree := do
    if ← sees "@" then
      annotationMark g
      return .inert
    else g.expression true
  if ← eats leftBrace then
    let parts ← many (do let v ← single; discard (eats ","); return v) g.bound
    discard (eats ",")
    discard (eat rightBrace)
    return .group .operation parts
  else single

/-- What follows the name of an element of an annotation type. -/
def elementTail (g : Grammar) (name : Token) : Parse Member := do
  discard (eat "(")
  discard (eat ")")
  dimensions g
  let value ← if ← eats "default" then some <$> elementValue g else pure none
  discard (eat ";")
  return .element name.text name.line value

/-- A method, a constructor or fields; `elements` says whether methods are elements of an annotation
type. -/
def callableOrFields (g : Grammar) (elements : Bool) : Parse Member := do
  let line ← lineHere
  modifiers g
  let generic ← attempt (typeParameters g)
  let constructor : Parse Member := do
    let name ← ident
    check (← sees "(")
    return .method (← methodTail g name line "")
  let compact : Parse Member := do
    let name ← ident
    check (← sees leftBrace)
    return .method ⟨name.text, name.line, line, "", [], [], some (← g.statement)⟩
  let typed : Parse Member := do
    let type ← typeText g
    if (← seesAhead 1 "(") then
      let name ← ident
      if elements then elementTail g name else return .method (← methodTail g name line type)
    else
      check generic.isNone
      let ds ← sepBy1 (declarator g) "," g.bound
      discard (eat ";")
      return .fields type ds
  constructor <|> compact <|> typed

/-- A member of a type, or a stray semicolon. -/
def member (g : Grammar) (elements : Bool) : Parse (Option Member) := do
  if ← eats ";" then return none
  let nested : Parse Member := do return .nested (← g.typeDecl)
  let initializer : Parse Member := do
    discard (eats "static")
    check (← sees leftBrace)
    return .initializer (← g.statement)
  some <$> (nested <|> initializer <|> callableOrFields g elements)

/-- The members of a type in their braces. -/
def classBody (g : Grammar) (elements : Bool) : Parse (List Member) := do
  discard (eat leftBrace)
  let ms ← many (member g elements) g.bound
  discard (eat rightBrace)
  return ms.filterMap id

/-- A constant of an enum. -/
def enumConstant (g : Grammar) : Parse Member := do
  annotations g
  let t ← ident
  let args ← if ← sees "(" then arguments g else pure []
  let body ← if ← sees leftBrace then classBody g false else pure []
  return .constant t.text t.line args body

/-- The constants and members of an enum in their braces. -/
def enumBody (g : Grammar) : Parse (List Member) := do
  discard (eat leftBrace)
  let constants ← many (do let c ← enumConstant g; discard (eats ","); return c) g.bound
  discard (eats ",")
  let ms ← if ← eats ";" then many (member g false) g.bound else pure []
  discard (eat rightBrace)
  return constants ++ ms.filterMap id

/-! ## types -/

/-- The supertypes of a type. -/
def supertypes (g : Grammar) : Parse Unit :=
  discard <| many (do
    let t ← next
    check (t.is "extends" || t.is "implements" || t.is "permits")
    typeList g) g.bound

/-- A type declaration. -/
def typeDecl (g : Grammar) : Parse TypeDecl := do
  let line ← lineHere
  modifiers g
  let t ← next
  if t.is "@" then discard (eat "interface")
  else if t.is "record" then check ((← seesAhead 1 "(") || (← seesAhead 1 "<"))
  else check (t.is "class" || t.is "interface" || t.is "enum")
  let name ← ident
  discard (attempt (typeParameters g))
  let components ← if t.is "record" then (·.2) <$> formalParameters g else pure []
  supertypes g
  let members ← if t.is "enum" then enumBody g else classBody g (t.is "@")
  return .mk name.text name.line line components members

/-! ## the whole grammar -/

/-- The body of an anonymous class, as part of a method body. -/
def anonymousBody (g : Grammar) : Parse (List Tree) := do
  return Member.trees (← classBody g false)

/-- The grammar of constructs whose parts follow a given grammar. -/
def Grammar.step (g : Grammar) : Grammar where
  bound := g.bound
  type := Java.type g
  expression := Java.expression g
  operand := Java.operand g (anonymousBody g)
  value := Java.value g
  pattern := Java.pattern g
  statement := Java.statement g
  typeDecl := Java.typeDecl g

/-- The grammar of constructs up to a depth of nesting. -/
def Grammar.ofDepth (bound depth : Nat) : Grammar := depth.repeat Grammar.step (.bottom bound)

/-- A package or import declaration. -/
def unitHead (g : Grammar) : Parse Unit := do
  modifiers g
  check ((← sees "package") || (← sees "import"))
  discard (many (do let t ← next; check !(t.is ";")) g.bound)
  discard (eat ";")

/-- A type at the top of a compilation unit, if the next declaration is one. -/
def unitMember (g : Grammar) : Parse (Option TypeDecl) := do
  match ← attempt (unitHead g) with
  | some _ => return none
  | none =>
    match ← member g false with
    | some (.nested d) => return some d
    | _ => return none

/-- The types of a compilation unit. -/
def unit (g : Grammar) : Parse (List TypeDecl) := do
  let ds ← many (unitMember g) g.bound
  check (← peek).isNone
  return ds.filterMap id

/-- The types declared in a Java source; none if it is malformed.  A construct of `n` tokens has
fewer than `4 * n` constructs one inside the other. -/
def parse (source : String) : List TypeDecl :=
  let tokens := tokenize source
  let n := tokens.length + 1
  match (unit (.ofDepth n (4 * n))).run tokens with
  | some (ds, _) => ds
  | none => []

end Ripple.Java
