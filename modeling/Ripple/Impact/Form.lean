import Ripple.Impact.Query
import Ripple.Impact.Render

/-!
# Ripple.Impact.Form

Questions as forms: a kind, and the names of the texts that are asked for.  The names are the ones
in which a blank text is complained about.
-/

namespace Ripple

/-- A kind of question. -/
inductive QuestionKind where
  | field | method | «class» | writers | readers | upstream | downstream
  deriving DecidableEq, Repr

namespace QuestionKind

/-- The names of the texts of a question. -/
def parameters : QuestionKind → List String
  | field => ["fieldName", "className"]
  | method => ["methodSignature", "className"]
  | «class» => ["className"]
  | writers | readers => ["fieldName"]
  | upstream => ["methodName"]
  | downstream => ["methodSignature"]

/-- The question with the texts that stand under the names. -/
def question (text : String → String) : QuestionKind → Question
  | field => .field (text "fieldName") (text "className")
  | method => .method (text "methodSignature") (text "className")
  | «class» => .class (text "className")
  | writers => .writers (text "fieldName")
  | readers => .readers (text "fieldName")
  | upstream => .upstream (text "methodName")
  | downstream => .downstream (text "methodSignature")

/-- The text of not finding what has a name. -/
def missingText (word : String) (name : RawText) : String := s!"{word} {name.quote} not found"

/-- The text of not finding a member of a class, one of whose names has stray bytes. -/
def strayMemberText (g : Graph) (kind : NodeKind) (word : String) (name className : RawText) :
    String :=
  missingText word name ++
    if (name.text?.bind (g.find? kind)).isSome then s!" in class {className.quote}" else ""

/-- The text of not finding what a question is about, one of whose texts has stray bytes.  No key of
a graph has any. -/
def strayText (g : Graph) (text : String → RawText) : QuestionKind → String
  | field => strayMemberText g .field "field" (text "fieldName") (text "className")
  | method => strayMemberText g .method "method" (text "methodSignature") (text "className")
  | «class» => missingText "class" (text "className")
  | writers | readers => missingText "field" (text "fieldName")
  | upstream => missingText "method" (text "methodName")
  | downstream => missingText "method" (text "methodSignature")

/-- Why a question fails one of whose texts has stray bytes.  Such a text is not blank, another one
can be. -/
def strayFailure (g : Graph) (text : String → RawText) (k : QuestionKind) : Failure :=
  match k.parameters.find? fun p => (text p).text?.any Text.isBlank with
  | some p => .coded Code.invalidParameter (p ++ " must not be blank")
  | none => .coded Code.notFound (k.strayText g text)

end QuestionKind

namespace Answer

/-- The answer as JSON. -/
def toJson : Answer → Json
  | report r => r.toJson
  | methods l => l.toJson

/-- The answer as a drawn tree. -/
def tree : Answer → String
  | report r => r.tree
  | methods l => l.tree

/-- The answer as Markdown. -/
def markdown : Answer → String
  | report r => r.markdown
  | methods l => l.markdown

end Answer

end Ripple
