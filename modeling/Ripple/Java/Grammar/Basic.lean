import Ripple.Java.Token
import Ripple.Java.Tree
import Ripple.Text.Blank

/-!
# Ripple.Java.Grammar.Basic

Names, annotations, types and modifiers, and the record `Grammar` through which the productions
refer to one another: a production takes the grammar of its parts, so none is recursive by itself.
-/

namespace Ripple.Java

open Source Parse

/-- Parsers for the parts of a production. -/
structure Grammar where
  /-- More than the number of items any list can have. -/
  bound : Nat
  type : Parse Unit
  /-- An expression; the flag says whether it may be a lambda. -/
  expression : Bool → Parse Tree
  /-- An operand of an operator. -/
  operand : Bool → Parse Tree
  /-- An initial value: an expression, or values in braces. -/
  value : Parse Tree
  pattern : Parse Tree
  statement : Parse Tree
  typeDecl : Parse TypeDecl

/-- The grammar of parts nested too deeply. -/
def Grammar.bottom (bound : Nat) : Grammar where
  bound
  type := failure
  expression _ := failure
  operand _ := failure
  value := failure
  pattern := failure
  statement := failure
  typeDecl := failure

/-! ## names and annotations -/

/-- Whether a token is a name. -/
def isName (t : Token) : Bool := t.kind == .word && !keywords.contains t.text

/-- A name. -/
def ident : Parse Token := do
  let t ← next
  check (isName t)
  return t

/-- The tokens after the bracket that closes the one just taken; `depth` counts the brackets open
beyond it. -/
def afterClosing : Nat → List Token → List Token
  | _, [] => []
  | depth, t :: ts =>
    if t.is "(" then afterClosing (depth + 1) ts
    else if t.is ")" then
      match depth with
      | 0 => ts
      | depth + 1 => afterClosing depth ts
    else afterClosing depth ts

/-- An annotation, with everything in its brackets. -/
def annotationMark (g : Grammar) : Parse Unit := do
  discard (eat "@")
  discard (sepBy1 ident "." g.bound)
  if ← eats "(" then modify (afterClosing 0)

/-- Any number of annotations. -/
def annotations (g : Grammar) : Parse Unit := discard (many (annotationMark g) g.bound)

/-! ## types -/

/-- The types that are keywords. -/
def primitives : List String :=
  ["int", "long", "short", "byte", "char", "boolean", "float", "double", "void"]

/-- Whether a token is a type that is a keyword. -/
def isPrimitive (t : Token) : Bool := t.kind == .word && primitives.contains t.text

/-- A type argument, which may be a wildcard. -/
def typeArgument (g : Grammar) : Parse Unit := do
  annotations g
  if ← eats "?" then
    if (← sees "extends") || (← sees "super") then
      discard next
      g.type
  else g.type

/-- Type arguments in angle brackets; there may be none between them. -/
def typeArguments (g : Grammar) : Parse Unit := do
  discard (eat "<")
  unless ← sees ">" do discard (sepBy1 (typeArgument g) "," g.bound)
  discard (eat ">")

/-- A part of a qualified type. -/
def typeSegment (g : Grammar) : Parse Unit := do
  annotations g
  discard ident
  discard (attempt (typeArguments g))

/-- A type that is no array. -/
def plainType (g : Grammar) : Parse Unit := do
  annotations g
  if (← peek).any isPrimitive then discard next
  else discard (sepBy1 (typeSegment g) "." g.bound)

/-- Empty array brackets. -/
def brackets (g : Grammar) : Parse Unit := do
  annotations g
  discard (eat "[")
  discard (eat "]")

/-- Any number of array brackets. -/
def dimensions (g : Grammar) : Parse Unit := discard (many (brackets g) g.bound)

/-- A type. -/
def type (g : Grammar) : Parse Unit := do
  plainType g
  dimensions g

/-- The source of what a parser takes. -/
def sourceOf (p : Parse Unit) : Parse String := do
  let (_, ts) ← withTokens p
  return Token.source ts

/-- A type without the annotations before it, as text without blanks. -/
def typeText (g : Grammar) : Parse String := do
  annotations g
  return Text.compact (← sourceOf (type g))

/-- Types with commas between them. -/
def typeList (g : Grammar) : Parse Unit := discard (sepBy1 g.type "," g.bound)

/-- Type parameters with their bounds. -/
def typeParameters (g : Grammar) : Parse Unit := do
  let parameter : Parse Unit := do
    annotations g
    discard ident
    if ← eats "extends" then discard (sepBy1 g.type "&" g.bound)
  discard (eat "<")
  discard (sepBy1 parameter "," g.bound)
  discard (eat ">")

/-! ## modifiers -/

/-- The modifiers that are keywords. -/
def modifierWords : List String :=
  ["public", "protected", "private", "abstract", "static", "final", "strictfp", "default",
    "synchronized", "native", "transient", "volatile"]

/-- Whether a token can follow the modifier `sealed`. -/
def followsSealed (t : Token) : Bool :=
  modifierWords.contains t.text || t.is "class" || t.is "interface" || t.is "@"

/-- A modifier.  `sealed` is one only in front of a declaration. -/
def modifier (g : Grammar) : Parse Unit := do
  let some t ← peek | failure
  if t.is "@" then
    check !(← seesAhead 1 "interface")
    annotationMark g
  else if t.kind == .word && modifierWords.contains t.text then discard next
  else if t.is "sealed" then
    check ((← ahead 1).any followsSealed)
    discard next
  else
    discard (eat "non")
    discard (eat "-")
    discard (eat "sealed")

/-- Any number of modifiers. -/
def modifiers (g : Grammar) : Parse Unit := discard (many (modifier g) g.bound)

/-! ## parameters -/

/-- The comments in the source between two tokens. -/
def commentsFrom : Nat → List Char → List String
  | 0, _ => []
  | fuel + 1, cs =>
    match gap? cs with
    | some (c, rest) =>
      if c.head? == some '/' then String.ofList c :: commentsFrom fuel rest
      else commentsFrom fuel rest
    | none => []

/-- The comments in front of the next token, as texts without blanks. -/
def commentsBefore : Parse (List String) := do
  let gap := ((← peek).map (·.gap)).getD ""
  return (commentsFrom gap.length gap.toList).map Text.compact

/-- A parameter of a method, a lambda or a record.  A receiver with an annotation in front counts as
a parameter named `this`. -/
def formalParameter (g : Grammar) : Parse Parameter := do
  let start ← peek
  modifiers g
  let ahead ← if (← peek) == start then pure [] else commentsBefore
  let type ← typeText g
  let between ← commentsBefore
  let spread ← eats "..."
  let behind ← commentsBefore
  let name ← if ← sees "this" then next else ident
  dimensions g
  return ⟨if spread then ahead ++ [type] ++ between ++ behind else [type], spread, name.text,
    name.line⟩

/-- A receiver parameter: the names in front of `this`.  With an annotation in front it has one at
least. -/
def receiverParameter (g : Grammar) : Parse (List (String × Nat)) := do
  let annotated ← sees "@"
  annotations g
  type g
  let names ← many (do let t ← ident; discard (eat "."); return (t.text, t.line)) g.bound
  discard (eat "this")
  check !(annotated && names.isEmpty)
  return names

/-- The parameters of a method in their brackets, with the names of a receiver. -/
def formalParameters (g : Grammar) : Parse (List (String × Nat) × List Parameter) := do
  discard (eat "(")
  let receiver ← attempt (receiverParameter g)
  if receiver.isSome then discard (eats ",")
  let parameters ← if ← sees ")" then pure [] else sepBy1 (formalParameter g) "," g.bound
  discard (eat ")")
  return (receiver.getD [], parameters)

end Ripple.Java
