import Ripple.Failure
import Ripple.Text.Blank
import Ripple.Graph.Basic

/-!
# Ripple.Graph.Builder

Ingestion of facts.  A builder holds a graph under construction; each operation takes a builder to
an answer or an error, and a new builder.  Upserts are keyed, so a repeated mention gives the same
number, and an edge that is already there is not added again.  Once frozen, a builder refuses every
operation.

`Fact` lists the operations as data, and `ingest` performs one of them.
-/

namespace Ripple

open Std

/-- Why an operation on a builder is refused. -/
inductive GraphError where
  | frozen
  | emptyKey (kind : NodeKind)
  | missing (id : NodeId)
  | wrongKind (id : NodeId) (found wanted : NodeKind)
  | missingSource (label : String) (id : NodeId)
  | missingTarget (label : String) (id : NodeId)
  | badEndpoints (label : String) (source target : NodeKind)
  deriving DecidableEq, Repr

/-- The failure that an error of a builder is reported as. -/
def GraphError.toFailure : GraphError → Failure
  | frozen => .root .graphFrozen
  | emptyKey kind => .within s!"upsert {kind.label}" (.root .emptyKey)
  | missing id => .within s!"node {id}" (.root .nodeNotFound)
  | wrongKind id found wanted =>
    .within s!"node {id} is {found.label}, want {wanted.label}" (.root .nodeNotFound)
  | missingSource label id => .within s!"{label} edge source {id}" (.root .nodeNotFound)
  | missingTarget label id => .within s!"{label} edge target {id}" (.root .nodeNotFound)
  | badEndpoints label source target =>
    .within s!"{label} from {source.label} to {target.label}" (.root .badEndpoints)

/-- A graph under construction. -/
structure Builder where
  graph : Graph
  frozen : Bool
  /-- The time that new edges carry. -/
  now : Timestamp

/-- An operation on a builder: an answer or an error, and the builder afterwards. -/
abbrev Ingest := ExceptT GraphError (StateM Builder)

namespace Builder

/-- A builder over the empty graph. -/
def new (now : Timestamp) : Builder := ⟨Graph.empty, false, now⟩

/-- No further operation will succeed. -/
def freeze (b : Builder) : Builder := { b with frozen := true }

/-- Drops all nodes and edges. -/
def clear : Ingest Unit := fun b =>
  if b.frozen then (.error .frozen, b) else (.ok (), { b with graph := Graph.empty })

/-! ## nodes -/

/-- Appends a node and enters it into the indices of nodes. -/
def insertNode (g : Graph) (symbol : Symbol) : Graph :=
  let id : NodeId := g.nodes.size + 1
  { g with
    nodes := g.nodes.push ⟨id, symbol⟩
    keys := g.keys.insert (symbol.kind, symbol.key) id
    named :=
      if symbol.kind = .method then
        g.named.alter symbol.name (fun ids => some ((ids.getD #[]).push id))
      else g.named }

/-- The number of the node with this kind and key, which is added if it is not there. -/
def upsert (symbol : Symbol) : Ingest NodeId := fun b =>
  if b.frozen then (.error .frozen, b)
  else if Text.isBlank symbol.key then (.error (.emptyKey symbol.kind), b)
  else
    match b.graph.find? symbol.kind symbol.key with
    | some id => (.ok id, b)
    | none => (.ok (b.graph.nodes.size + 1), { b with graph := insertNode b.graph symbol })

/-- Replaces what is known about a node; its kind and key stay. -/
def update (g : Graph) (id : NodeId) (f : Symbol → Symbol) : Graph :=
  { g with nodes := g.nodes.modify (id - 1).toNat (fun n => { n with symbol := f n.symbol }) }

/-- The file with a given path. -/
def upsertFile (name path : String) : Ingest NodeId :=
  upsert (.file name path)

/-- Gives a type a file path, unless it has one. -/
def withFilePath (filePath : String) : Symbol → Symbol
  | .type name "" => .type name filePath
  | s => s

/-- The type with a given name; the first path that is not empty stays with it. -/
def upsertType (name filePath : String) : Ingest NodeId := do
  let id ← upsert (.type name filePath)
  modify fun b => { b with graph := update b.graph id (withFilePath filePath) }
  return id

/-- The field with a given name. -/
def upsertField (name : String) : Ingest NodeId :=
  upsert (.field name [])

/-- The method with a given signature. -/
def upsertMethod (signature : String) : Ingest NodeId :=
  upsert (.method signature "" [])

/-- Checks that a number stands for a node of a kind. -/
def expect (id : NodeId) (kind : NodeKind) : Ingest Unit := fun b =>
  if b.frozen then (.error .frozen, b)
  else
    match b.graph.node? id with
    | none => (.error (.missing id), b)
    | some n => if n.kind = kind then (.ok (), b) else (.error (.wrongKind id n.kind kind), b)

/-- Adds a declared type to a field, once. -/
def withFieldType (text : String) : Symbol → Symbol
  | .field name types =>
    if text = "" ∨ text ∈ types then .field name types else .field name (types ++ [text])
  | s => s

/-- Records a declared type of a field.  A field collects the distinct types of all classes that
declare its name; the empty text is no type. -/
def setFieldType (id : NodeId) (text : String) : Ingest Unit := do
  expect id .field
  modify fun b => { b with graph := update b.graph id (withFieldType text) }

/-- Fills in the types of a method where they are still empty. -/
def withMethodTypes (returnType : String) (parameterTypes : List String) : Symbol → Symbol
  | .method signature ret params =>
    .method signature (if ret = "" then returnType else ret)
      (if params = [] then parameterTypes else params)
  | s => s

/-- Records the return and parameter types of a method; the first that are not empty stay. -/
def setMethodTypes (id : NodeId) (returnType : String) (parameterTypes : List String) :
    Ingest Unit := do
  expect id .method
  modify fun b => { b with graph := update b.graph id (withMethodTypes returnType parameterTypes) }

/-! ## edges -/

/-- Appends an edge and enters it into the indices of edges. -/
def insertEdge (g : Graph) (e : Edge) : Graph :=
  { g with
    edges := g.edges.push e
    seen := g.seen.insert e.key
    out := g.out.alter (e.kind, e.source) (fun es => some ((es.getD #[]).push e))
    into := g.into.alter (e.kind, e.target) (fun es => some ((es.getD #[]).push e)) }

/-- Adds an edge between two nodes whose kinds its label allows.  An edge without a time gets the
builder's; one that is already there is left as it is. -/
def addEdge (label : EdgeLabel) (source target : NodeId) (line : Int)
    (createdAt : Option Timestamp) (confidence : Float) : Ingest Unit := fun b =>
  if b.frozen then (.error .frozen, b)
  else
    match b.graph.node? source, b.graph.node? target, label with
    | none, _, _ => (.error (.missingSource label.text source), b)
    | some _, none, _ => (.error (.missingTarget label.text target), b)
    | some s, some t, .other text => (.error (.badEndpoints text s.kind t.kind), b)
    | some s, some t, .kind kind =>
      if kind.joins s.kind t.kind then
        if b.graph.seen.contains ⟨kind, source, target, line⟩ then (.ok (), b)
        else
          let e : Edge :=
            ⟨b.graph.edges.size + 1, kind, source, target, line, createdAt.getD b.now, confidence⟩
          (.ok (), { b with graph := insertEdge b.graph e })
      else (.error (.badEndpoints kind.label s.kind t.kind), b)

/-- The confidence of an edge that was read from source code. -/
def certain : Float := 1.0

/-- Adds an edge of a kind, at the builder's time. -/
def link (kind : EdgeKind) (source target : NodeId) (line : Int) : Ingest Unit :=
  addEdge (.kind kind) source target line none certain

/-- A file contains a type. -/
def declareType (file type : NodeId) (line : Int) : Ingest Unit := link .contains file type line

/-- A type has a field. -/
def declareField (type field : NodeId) (line : Int) : Ingest Unit := link .hasField type field line

/-- A type contains a method. -/
def declareMethod (type method : NodeId) (line : Int) : Ingest Unit :=
  link .contains type method line

/-- A method calls a method. -/
def recordCall (caller callee : NodeId) (line : Int) : Ingest Unit := link .calls caller callee line

/-- A method reads a field. -/
def recordRead (method field : NodeId) (line : Int) : Ingest Unit := link .reads method field line

/-- A method writes a field. -/
def recordWrite (method field : NodeId) (line : Int) : Ingest Unit := link .writes method field line

end Builder

/-! ## facts -/

/-- An operation on a builder, as data. -/
inductive Fact where
  | file (name path : String)
  | type (name filePath : String)
  | field (name : String)
  | method (signature : String)
  | fieldType (id : NodeId) (text : String)
  | methodTypes (id : NodeId) (returnType : String) (parameterTypes : List String)
  | link (kind : EdgeKind) (source target : NodeId) (line : Int)
  | edge (label : EdgeLabel) (source target : NodeId) (line : Int) (createdAt : Option Timestamp)
    (confidence : Float)

namespace Builder

/-- Performs one fact; upserts answer with the number of their node. -/
def ingest : Fact → Ingest (Option NodeId)
  | .file name path => some <$> upsertFile name path
  | .type name filePath => some <$> upsertType name filePath
  | .field name => some <$> upsertField name
  | .method signature => some <$> upsertMethod signature
  | .fieldType id text => (fun _ => none) <$> setFieldType id text
  | .methodTypes id ret params => (fun _ => none) <$> setMethodTypes id ret params
  | .link kind source target line => (fun _ => none) <$> link kind source target line
  | .edge label source target line createdAt confidence =>
    (fun _ => none) <$> addEdge label source target line createdAt confidence

end Builder

end Ripple
