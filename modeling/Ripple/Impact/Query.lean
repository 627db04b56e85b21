import Ripple.Failure
import Ripple.Text.Blank
import Ripple.Text.Quoted
import Ripple.Graph.Closure
import Ripple.Impact.Assembly
import Ripple.Impact.Resemblance

/-!
# Ripple.Impact.Query

The seven questions about a reference graph, and their answers.

Full questions ask what is affected by a change of a field, a method or a class, and are scoped by
the declaring class; flat questions list the writers or readers of a field, the methods that reach a
method name, or the methods that a signature reaches.  Fields and methods are matched by name and
signature, whichever class declares them.
-/

namespace Ripple

open Std

/-- A question about a graph. -/
inductive Question where
  | field (fieldName className : String)
  | method (signature className : String)
  | «class» (className : String)
  | writers (fieldName : String)
  | readers (fieldName : String)
  | upstream (methodName : String)
  | downstream (signature : String)
  deriving DecidableEq, Repr

/-- The word for a kind of question. -/
def Question.word : Question → String
  | field _ _ => "field"
  | method _ _ => "method"
  | «class» _ => "class"
  | writers _ => "writers"
  | readers _ => "readers"
  | upstream _ => "upstream"
  | downstream _ => "downstream"

/-- The answer to a question. -/
inductive Answer where
  | report (r : Report)
  | methods (l : MethodList)
  deriving DecidableEq, Repr

/-- What a question is asked of. -/
structure Scope where
  graph : Graph
  /-- The largest closure, or zero for no bound. -/
  cap : Nat
  /-- The answers to the successive polls for cancellation. -/
  cancelled : Nat → Bool

/-- How far a query has come: the polls so far, and whether the cap was hit. -/
structure Progress where
  polls : Nat
  truncated : Bool

/-- A computation that may run closures and may fail. -/
abbrev Query := StateT Progress (Except Failure)

namespace Query

/-- Runs a query from its start. -/
def answer (q : Query α) : Except Failure α :=
  match q.run ⟨0, false⟩ with
  | .ok (a, _) => .ok a
  | .error e => .error e

/-- The answer is that there is nothing of the kind. -/
def notFound (text : String) : Query α :=
  throw (.coded Code.notFound text)

/-- A blank parameter is refused. -/
def require (name value : String) : Query Unit :=
  if Text.isBlank value then throw (.coded Code.invalidParameter (name ++ " must not be blank"))
  else pure ()

/-- The closure of a set over calls. -/
def callClosure (s : Scope) (direction : Direction) (seeds : List NodeId) : Query (List NodeId) :=
  fun p =>
    match s.graph.closure direction .calls seeds s.cap (fun k => s.cancelled (p.polls + k)) with
    | none => .error (.root .cancelled)
    | some (c, visits) =>
      .ok (c.nodes, ⟨p.polls + visits / Closure.pollInterval, p.truncated || c.truncated⟩)

/-- The methods that reach one of some methods over calls. -/
def callers (s : Scope) (methods : List NodeId) : Query (List NodeId) :=
  callClosure s .backward methods

/-- The methods that one of some methods reaches over calls. -/
def callees (s : Scope) (methods : List NodeId) : Query (List NodeId) :=
  callClosure s .forward methods

/-- The methods that read or write one of some fields. -/
def accessors (g : Graph) (fields : List NodeId) : List NodeId :=
  NodeId.setOf (fields.flatMap fun f => g.predecessors f .reads ++ g.predecessors f .writes)

/-- The methods that resemble one of some methods. -/
def similar (g : Graph) (like : MethodView → MethodView → Bool) (methods : List NodeId) :
    List NodeId :=
  let view id := (g.node? id).bind (·.symbol.methodView?)
  NodeId.setOf (methods.flatMap fun id =>
    match view id with
    | none => []
    | some m => (g.methodsNamed m.name).filter fun c => (view c).any (like · m))

/-- The files of the types that declare one of some members. -/
def filesOf (g : Graph) (members : List NodeId) : List NodeId :=
  NodeId.setOf (members.flatMap fun id => (g.declaringTypes id).flatMap g.declaringFiles)

/-- Whether a type declares a member. -/
def declares (g : Graph) (type member : NodeId) : Bool :=
  (g.declaringTypes member).contains type

/-- The report on a target, with the affected methods and fields. -/
def reportOn (s : Scope) (target : Target) (type : NodeId) (chain fields : List NodeId)
    (files : List NodeId) : Query Report := do
  let sel : Selection :=
    { files := files
      chain := HashSet.ofList chain
      fields := HashSet.ofList fields
      targets := [type] }
  return ⟨target, assemble s.graph sel, (← get).truncated⟩

/-! ## full questions -/

/-- What is affected by a change of a field of a class: the methods that access it, those that
resemble them, and the callers of both. -/
def fieldImpact (s : Scope) (fieldName className : String) : Query Report := do
  require "fieldName" fieldName
  require "className" className
  let g := s.graph
  let some field := g.find? .field fieldName
    | notFound s!"field {Text.quote fieldName} not found"
  let absent := s!"field {Text.quote fieldName} not found in class {Text.quote className}"
  let some type := g.find? .type className | notFound absent
  if !declares g type field then notFound absent
  let direct := accessors g [field]
  let directCallers ← callers s direct
  let variants := similar g MethodView.isVariantOf direct
  let variantCallers ← callers s variants
  let chain := NodeId.setOf (direct ++ directCallers ++ variants ++ variantCallers)
  let files := NodeId.setOf (filesOf g chain ++ g.declaringFiles type)
  reportOn s ⟨"field", fieldName, className, ""⟩ type chain [field] files

/-- What is affected by a change of a method of a class: its callers and callees, the other methods
that access its fields, its overloads, and the callers of both. -/
def methodImpact (s : Scope) (signature className : String) : Query Report := do
  require "methodSignature" signature
  require "className" className
  let g := s.graph
  let some method := g.find? .method signature
    | notFound s!"method {Text.quote signature} not found"
  let absent := s!"method {Text.quote signature} not found in class {Text.quote className}"
  let some type := g.find? .type className | notFound absent
  if !declares g type method then notFound absent
  let above ← callers s [method]
  let below ← callees s [method]
  let fields := NodeId.setOf (g.successors method .reads ++ g.successors method .writes)
  let sharing := accessors g fields
  let sharingCallers ← callers s sharing
  let overloads := similar g MethodView.isOverloadOf [method]
  let overloadCallers ← callers s overloads
  let chain := NodeId.setOf
    ([method] ++ above ++ below ++ sharing ++ sharingCallers ++ overloads ++ overloadCallers)
  let files := NodeId.setOf (filesOf g chain ++ g.declaringFiles type)
  let target : Target := ⟨"method", Signature.simpleName signature, className, signature⟩
  reportOn s target type chain fields files

/-- What is affected by a change of a class: the callers and callees of its methods, the methods
that access its fields, the methods and fields whose types show its name, the overloads of its
methods, and their callers.  There is no answer when nothing refers to the class. -/
def classImpact (s : Scope) (className : String) : Query Report := do
  require "className" className
  let g := s.graph
  let some type := g.find? .type className
    | notFound s!"class {Text.quote className} not found"
  let own := g.successors type .contains
  let ownFields := g.successors type .hasField
  let above ← callers s own
  let below ← callees s own
  let access := accessors g ownFields
  let accessCallers ← callers s access
  let refers (kind : NodeKind) : List NodeId :=
    ((g.nodesOfKind kind).filter (·.symbol.refersTo className)).map (·.id)
  let typed := refers .method
  let typedCallers ← callers s typed
  let overloads := similar g MethodView.isOverloadOf own
  let overloadCallers ← callers s overloads
  let typedFields := refers .field
  if above.isEmpty && typedFields.isEmpty && typed.isEmpty then
    notFound s!"no references found for class {Text.quote className}"
  let chain := NodeId.setOf (own ++ above ++ below ++ access ++ accessCallers ++ typed ++
    typedCallers ++ overloads ++ overloadCallers)
  let fields := NodeId.setOf (ownFields ++ typedFields)
  let files := NodeId.setOf (filesOf g chain ++ g.declaringFiles type ++ filesOf g typedFields)
  reportOn s ⟨"class", className, className, ""⟩ type chain fields files

/-! ## flat questions -/

/-- The paths under which a method is listed: those of the files that contain a declaring type, the
file path of a type that no file contains, and the empty path if no type declares the method. -/
def pathsOf (g : Graph) (method : NodeId) : List String :=
  match g.declaringTypes method with
  | [] => [""]
  | types => (types.flatMap fun type =>
      match g.declaringFiles type with
      | [] => [((g.node? type).map (·.symbol.path)).getD ""]
      | files => files.map (Assembly.keyOf g)).eraseDups

/-- One entry for each method and path, in order of signature and path. -/
def describe (g : Graph) (methods : List NodeId) : List MethodEntry :=
  let entries := methods.flatMap fun id =>
    match g.node? id with
    | none => []
    | some m => (pathsOf g id).map fun path => ⟨m.name, m.key, path⟩
  entries.mergeSort fun a b =>
    a.signature < b.signature || (a.signature == b.signature && decide (a.filePath ≤ b.filePath))

/-- The methods that access a field in one way. -/
def fieldAccess (s : Scope) (kind : EdgeKind) (what fieldName : String) : Query MethodList := do
  require "fieldName" fieldName
  let some field := s.graph.find? .field fieldName
    | notFound s!"field {Text.quote fieldName} not found"
  let methods := s.graph.predecessors field kind
  if methods.isEmpty then notFound s!"no {what} found for field {Text.quote fieldName}"
  return ⟨describe s.graph methods, false⟩

/-- The methods that reach a method of a given name over calls; methods of that name are not
listed. -/
def upstreamCallers (s : Scope) (methodName : String) : Query MethodList := do
  require "methodName" methodName
  let seeds := s.graph.methodsNamed methodName
  if seeds.isEmpty then notFound s!"method {Text.quote methodName} not found"
  let found ← callers s seeds
  if found.isEmpty then
    notFound s!"no upstream callers found for method {Text.quote methodName}"
  return ⟨describe s.graph found, (← get).truncated⟩

/-- The methods that a method reaches over calls, itself excepted. -/
def downstreamCallees (s : Scope) (signature : String) : Query MethodList := do
  require "methodSignature" signature
  let some method := s.graph.find? .method signature
    | notFound s!"method {Text.quote signature} not found"
  let found ← callees s [method]
  if found.isEmpty then
    notFound s!"no downstream callees found for method {Text.quote signature}"
  return ⟨describe s.graph found, (← get).truncated⟩

end Query

/-- Answers a question. -/
def ask (s : Scope) : Question → Except Failure Answer
  | .field fieldName className => .report <$> (Query.fieldImpact s fieldName className).answer
  | .method signature className => .report <$> (Query.methodImpact s signature className).answer
  | .class className => .report <$> (Query.classImpact s className).answer
  | .writers fieldName => .methods <$> (Query.fieldAccess s .writes "writers" fieldName).answer
  | .readers fieldName => .methods <$> (Query.fieldAccess s .reads "readers" fieldName).answer
  | .upstream methodName => .methods <$> (Query.upstreamCallers s methodName).answer
  | .downstream signature => .methods <$> (Query.downstreamCallees s signature).answer

end Ripple
