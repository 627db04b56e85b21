import Ripple.Graph.Basic
import Ripple.Json.Basic
import Ripple.Time.Date
import Ripple.Word

/-!
# Ripple.Snapshot.Tables

A graph as rows of two tables.  A row has a number of its own, and columns that are not needed for
its kind of node are absent.  Lists are stored as JSON texts, and an empty list as nothing.

`Tables.ofGraph` writes a graph; `addNode?` and `addEdge?` add a single row and keep the constraints
of the tables: required columns, distinct numbers, and one row per kind and key, or per kind, ends
and line.
-/

namespace Ripple.Snapshot

/-- A stored node. -/
structure NodeRow where
  id : Int
  kind : String
  key : String
  name : String
  absolutePath : Option String
  filePath : Option String
  fieldTypes : Option String
  signature : Option String
  returnType : Option String
  parameterTypes : Option String
  deriving DecidableEq, Repr

/-- A stored edge. -/
structure EdgeRow where
  id : Int
  kind : String
  source : Int
  target : Int
  line : Int
  createdAt : Timestamp
  confidence : Float
  deriving Repr

/-- What is stored: rows in order of arrival, and the text of the time at which a graph was last
written. -/
structure Tables where
  nodes : List NodeRow
  edges : List EdgeRow
  savedAt : Option String

/-- Tables without rows. -/
def Tables.empty : Tables := ⟨[], [], none⟩

/-! ## writing a graph -/

/-- A text as a column, absent when it is empty. -/
def column (s : String) : Option String := if s = "" then none else some s

/-- A list as a column, absent when it is empty. -/
def listColumn (items : List String) : Option String :=
  if items.isEmpty then none else some (Json.array (items.map .string)).compact

/-- The row of a node. -/
def NodeRow.ofNode (n : Node) : NodeRow :=
  let row : NodeRow :=
    ⟨n.id, n.kind.label, n.key, n.name, none, none, none, none, none, none⟩
  match n.symbol with
  | .file _ path => { row with absolutePath := column path }
  | .type _ filePath => { row with filePath := column filePath }
  | .field _ types => { row with fieldTypes := listColumn types }
  | .method signature ret params =>
    { row with
      signature := column signature
      returnType := column ret
      parameterTypes := listColumn params }

/-- A time as a column, which is a signed word. -/
def timeColumn (t : Timestamp) : Timestamp := Int.bmod t Word.count

/-- The row of an edge. -/
def EdgeRow.ofEdge (e : Edge) : EdgeRow :=
  ⟨e.id, e.kind.label, e.source, e.target, e.line, timeColumn e.createdAt, e.confidence⟩

/-- The tables that hold a graph written at a time. -/
def Tables.ofGraph (g : Graph) (now : Timestamp) : Tables where
  nodes := g.nodes.toList.map NodeRow.ofNode
  edges := g.edges.toList.map EdgeRow.ofEdge
  savedAt := some (Moment.ofTimestamp now).stamp

/-! ## single rows -/

/-- The number of a new row: the one that is asked for, else one more than the largest. -/
def freshId (used : List Int) : Option Int → Int
  | some id => id
  | none => match used.max? with
    | some top => top + 1
    | none => 1

/-- The columns of a node to be added, any of which may be missing. -/
structure NodeEntry where
  id : Option Int
  kind : Option String
  key : Option String
  name : Option String
  absolutePath : Option String
  filePath : Option String
  fieldTypes : Option String
  signature : Option String
  returnType : Option String
  parameterTypes : Option String

/-- Adds the row of a node, unless a constraint forbids it. -/
def Tables.addNode? (t : Tables) (e : NodeEntry) : Option Tables := do
  let id := freshId (t.nodes.map (·.id)) e.id
  let row : NodeRow := ⟨id, ← e.kind, ← e.key, ← e.name, e.absolutePath, e.filePath, e.fieldTypes,
    e.signature, e.returnType, e.parameterTypes⟩
  if t.nodes.any fun r => r.id == row.id || (r.kind == row.kind && r.key == row.key) then none
  return { t with nodes := t.nodes ++ [row] }

/-- The columns of an edge to be added, any of which may be missing. -/
structure EdgeEntry where
  id : Option Int
  kind : Option String
  source : Option Int
  target : Option Int
  line : Option Int
  createdAt : Option Timestamp
  confidence : Option Float

/-- Whether two edge rows state the same fact. -/
def EdgeRow.same (a b : EdgeRow) : Bool :=
  a.kind == b.kind && a.source == b.source && a.target == b.target && a.line == b.line

/-- Adds the row of an edge, unless a constraint forbids it.  Its ends need not be there. -/
def Tables.addEdge? (t : Tables) (e : EdgeEntry) : Option Tables := do
  let id := freshId (t.edges.map (·.id)) e.id
  let row : EdgeRow :=
    ⟨id, ← e.kind, ← e.source, ← e.target, ← e.line, ← e.createdAt, ← e.confidence⟩
  if t.edges.any fun r => r.id == row.id || r.same row then none
  return { t with edges := t.edges ++ [row] }

end Ripple.Snapshot
