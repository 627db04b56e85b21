import Ripple.Graph.Builder
import Ripple.Json.Reader
import Ripple.Snapshot.Tables
import Ripple.Text.Quoted

/-!
# Ripple.Snapshot.Load

From stored rows back to a graph.  Rows are taken in order of their numbers and fed to a fresh
builder, so the graph is one that ingestion could have made: nodes and edges are numbered anew, and
a row that ingestion would refuse is an error.
-/

namespace Ripple.Snapshot

open Std

/-- What is wrong with the row of a node. -/
inductive RowProblem where
  | unknownKind (kind : String)
  | badList (text : String)
  | refused (e : GraphError)
  deriving DecidableEq, Repr

/-- Why stored rows are no graph. -/
inductive LoadError where
  | node (id : Int) (problem : RowProblem)
  | edge (id : Int) (problem : GraphError)
  deriving DecidableEq, Repr

/-- The failure of a row. -/
def RowProblem.toFailure : RowProblem → Failure
  | unknownKind kind => .ofText ("unknown node kind " ++ Text.quote kind)
  | badList text => .ofText ("decode list " ++ Text.quote text)
  | refused e => e.toFailure

/-- The failure that an error of loading is reported as. -/
def LoadError.toFailure : LoadError → Failure
  | node id problem => .within s!"load node {id}" problem.toFailure
  | edge id problem => .within s!"load edge {id}" problem.toFailure

/-- A loading step: an answer or an error, and the builder afterwards. -/
abbrev Loading (ε : Type) := ExceptT ε (StateM Builder)

/-- Runs an operation on the builder inside a loading step. -/
def Loading.lift (f : GraphError → ε) (x : Ingest α) : Loading ε α := fun b =>
  let (r, b) := x.run b
  (r.mapError f, b)

/-- The list of a column; an absent or empty text is the empty list. -/
def listOf (text : Option String) : Except RowProblem (List String) :=
  match text with
  | none | some "" => .ok []
  | some s =>
    match (Json.parse? s).bind Json.texts? with
    | some items => .ok items
    | none => .error (.badList s)

/-- Feeds the row of a node to the builder and answers with its new number. -/
def loadNode (row : NodeRow) : Loading RowProblem NodeId :=
  match NodeKind.ofLabel? row.kind with
  | some .file => .lift .refused (Builder.upsertFile row.name row.key)
  | some .type => .lift .refused (Builder.upsertType row.key (row.filePath.getD ""))
  | some .field => do
    let id ← Loading.lift .refused (Builder.upsertField row.key)
    let types ← liftExcept (listOf row.fieldTypes)
    Loading.lift .refused (types.forM (Builder.setFieldType id))
    return id
  | some .method => do
    let id ← Loading.lift .refused (Builder.upsertMethod row.key)
    let params ← liftExcept (listOf row.parameterTypes)
    Loading.lift .refused (Builder.setMethodTypes id (row.returnType.getD "") params)
    return id
  | none => throw (.unknownKind row.kind)
where
  liftExcept {α : Type} (r : Except RowProblem α) : Loading RowProblem α := fun b => (r, b)

/-- The new number of each stored one. -/
abbrev Renumbering := HashMap Int NodeId

/-- Feeds all rows of nodes. -/
def loadNodes (ids : Renumbering) : List NodeRow → Loading LoadError Renumbering
  | [] => return ids
  | row :: rest => fun b =>
    match (loadNode row).run b with
    | (.ok id, b) => loadNodes (ids.insert row.id id) rest b
    | (.error e, b) => (.error (.node row.id e), b)

/-- Feeds the row of an edge.  A stored number that no node has becomes 0, which is none. -/
def loadEdge (ids : Renumbering) (row : EdgeRow) : Loading LoadError Unit :=
  .lift (.edge row.id) (Builder.addEdge (.ofText row.kind) (ids.getD row.source 0)
    (ids.getD row.target 0) row.line (some row.createdAt) row.confidence)

/-- Feeds all rows in order of their numbers. -/
def loadRows (t : Tables) : Loading LoadError Unit := do
  let ids ← loadNodes ∅ (t.nodes.mergeSort fun a b => decide (a.id ≤ b.id))
  (t.edges.mergeSort fun a b => decide (a.id ≤ b.id)).forM (loadEdge ids)

/-- The graph of some tables, frozen. -/
def Tables.load (t : Tables) : Except LoadError Builder :=
  let (r, b) := (loadRows t).run (Builder.new 0)
  r.map fun _ => b.freeze

end Ripple.Snapshot
