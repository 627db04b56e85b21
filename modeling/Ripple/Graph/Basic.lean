import Std.Data.HashMap
import Std.Data.HashSet
import Ripple.Signature

/-!
# Ripple.Graph.Basic

The reference graph: files, types, fields and methods of a code base, joined by labelled edges.

Nodes are numbered 1, 2, 3, … in order of first mention, and so are edges.  A node is found by its
kind and key: a file by its path, a type and a field by name, a method by signature.  Keys are
global, so two declarations that share one are one node.

Beside the two arrays the graph keeps five indices, all determined by them: `keys` and `named` for
nodes, `seen`, `out` and `into` for edges.
-/

namespace Ripple

open Std

/-- Number of a node; the first one is 1. -/
abbrev NodeId := Int

/-- Number of an edge; the first one is 1. -/
abbrev EdgeId := Int

/-! ## kinds -/

/-- The kinds of code element. -/
inductive NodeKind where
  | file | type | field | method
  deriving DecidableEq, Hashable, Repr

namespace NodeKind

/-- The word for a kind of node in messages and stored rows. -/
def label : NodeKind → String
  | file => "File"
  | type => "Class"
  | field => "Field"
  | method => "Method"

/-- The kind with a given word. -/
def ofLabel? (s : String) : Option NodeKind :=
  [file, type, field, method].find? (·.label == s)

end NodeKind

/-- The kinds of relation. -/
inductive EdgeKind where
  | contains | hasField | calls | reads | writes
  deriving DecidableEq, Hashable, Repr

namespace EdgeKind

/-- The word for a kind of edge in messages and stored rows. -/
def label : EdgeKind → String
  | contains => "CONTAINS"
  | hasField => "HAS_FIELD"
  | calls => "CALLS"
  | reads => "READS"
  | writes => "WRITES"

/-- The kind with a given word. -/
def ofLabel? (s : String) : Option EdgeKind :=
  [contains, hasField, calls, reads, writes].find? (·.label == s)

/-- Which kinds of node an edge may join: a file contains types, a type contains methods and has
fields, a method calls methods and accesses fields. -/
def joins : EdgeKind → NodeKind → NodeKind → Bool
  | contains, .file, .type => true
  | contains, .type, .method => true
  | hasField, .type, .field => true
  | calls, .method, .method => true
  | reads, .method, .field => true
  | writes, .method, .field => true
  | _, _, _ => false

end EdgeKind

/-- The label of a proposed edge, which need not name a kind. -/
inductive EdgeLabel where
  | kind (k : EdgeKind)
  | other (text : String)
  deriving DecidableEq, Repr

namespace EdgeLabel

/-- The label with a given text. -/
def ofText (s : String) : EdgeLabel :=
  match EdgeKind.ofLabel? s with
  | some k => .kind k
  | none => .other s

/-- The text of a label. -/
def text : EdgeLabel → String
  | kind k => k.label
  | other s => s

end EdgeLabel

/-! ## nodes and edges -/

/-- A code element with what is known about it. -/
inductive Symbol where
  | file (name path : String)
  /-- `filePath` is the first path that was given for the type, or empty. -/
  | type (name filePath : String)
  /-- A field collects the distinct types under which its name is declared. -/
  | field (name : String) (types : List String)
  /-- The signature is stored once: key and name of a method are read off it. -/
  | method (signature returnType : String) (parameterTypes : List String)
  deriving DecidableEq, Repr

namespace Symbol

/-- The kind of a code element. -/
def kind : Symbol → NodeKind
  | file _ _ => .file
  | type _ _ => .type
  | field _ _ => .field
  | method _ _ _ => .method

/-- The text that identifies an element among those of its kind. -/
def key : Symbol → String
  | file _ path => path
  | type name _ => name
  | field name _ => name
  | method signature _ _ => signature

/-- The simple name of an element. -/
def name : Symbol → String
  | file name _ => name
  | type name _ => name
  | field name _ => name
  | method signature _ _ => Signature.simpleName signature

/-- The path of a file, or the file path of a type; empty for members. -/
def path : Symbol → String
  | file _ path => path
  | type _ filePath => filePath
  | field _ _ | method _ _ _ => ""

end Symbol

/-- A numbered code element. -/
structure Node where
  id : NodeId
  symbol : Symbol
  deriving DecidableEq, Repr

namespace Node

/-- The kind of a node. -/
def kind (n : Node) : NodeKind := n.symbol.kind

/-- The key of a node. -/
def key (n : Node) : String := n.symbol.key

/-- The simple name of a node. -/
def name (n : Node) : String := n.symbol.name

end Node

/-- Nanoseconds since the beginning of 1970. -/
abbrev Timestamp := Int

/-- A labelled relation between two nodes, with the source line that shows it. -/
structure Edge where
  id : EdgeId
  kind : EdgeKind
  source : NodeId
  target : NodeId
  line : Int
  createdAt : Timestamp
  confidence : Float
  deriving Repr

/-- What tells two edges apart: the same fact on the same line is one edge. -/
structure EdgeKey where
  kind : EdgeKind
  source : NodeId
  target : NodeId
  line : Int
  deriving DecidableEq, Hashable, Repr

/-- The identifying part of an edge. -/
def Edge.key (e : Edge) : EdgeKey := ⟨e.kind, e.source, e.target, e.line⟩

/-! ## the graph -/

/-- Nodes and edges in order of arrival, with the indices that queries use. -/
structure Graph where
  nodes : Array Node
  edges : Array Edge
  /-- The node of a kind and key. -/
  keys : HashMap (NodeKind × String) NodeId
  /-- The methods of a simple name, in order of number. -/
  named : HashMap String (Array NodeId)
  /-- The identifying parts of all edges. -/
  seen : HashSet EdgeKey
  /-- The edges of a kind that leave a node, in order of arrival. -/
  out : HashMap (EdgeKind × NodeId) (Array Edge)
  /-- The edges of a kind that reach a node, in order of arrival. -/
  into : HashMap (EdgeKind × NodeId) (Array Edge)

namespace Graph

/-- The graph without nodes. -/
def empty : Graph := ⟨#[], #[], ∅, ∅, ∅, ∅, ∅⟩

/-- How many nodes there are. -/
def nodeCount (g : Graph) : Nat := g.nodes.size

/-- How many edges there are. -/
def edgeCount (g : Graph) : Nat := g.edges.size

/-- The node with a given number. -/
def node? (g : Graph) (id : NodeId) : Option Node :=
  if 1 ≤ id then g.nodes[(id - 1).toNat]? else none

/-- The node of a kind and key. -/
def find? (g : Graph) (kind : NodeKind) (key : String) : Option NodeId :=
  g.keys[(kind, key)]?

/-- The nodes of a kind, in order of number. -/
def nodesOfKind (g : Graph) (kind : NodeKind) : List Node :=
  g.nodes.toList.filter (·.kind == kind)

/-- The methods with a given simple name, in order of number. -/
def methodsNamed (g : Graph) (name : String) : List NodeId :=
  (g.named.getD name #[]).toList

/-- The edges of a kind that leave a node, in order of arrival. -/
def outgoing (g : Graph) (id : NodeId) (kind : EdgeKind) : List Edge :=
  (g.out.getD (kind, id) #[]).toList

/-- The edges of a kind that reach a node, in order of arrival. -/
def incoming (g : Graph) (id : NodeId) (kind : EdgeKind) : List Edge :=
  (g.into.getD (kind, id) #[]).toList

/-- How many nodes of a kind there are. -/
def countOf (g : Graph) (kind : NodeKind) : Nat :=
  (g.nodesOfKind kind).length

end Graph

/-! ## sets of nodes -/

namespace NodeId

/-- Keeps one of each run of equal neighbours. -/
def dropRepeats : List NodeId → List NodeId
  | a :: b :: rest => if a == b then dropRepeats (b :: rest) else a :: dropRepeats (b :: rest)
  | short => short

/-- The members of a list as a set: strictly increasing. -/
def setOf (ids : List NodeId) : List NodeId :=
  dropRepeats (ids.mergeSort (fun a b => decide (a ≤ b)))

end NodeId

namespace Graph

/-- The distinct targets of the edges of a kind that leave a node, increasing. -/
def successors (g : Graph) (id : NodeId) (kind : EdgeKind) : List NodeId :=
  NodeId.setOf ((g.outgoing id kind).map (·.target))

/-- The distinct sources of the edges of a kind that reach a node, increasing. -/
def predecessors (g : Graph) (id : NodeId) (kind : EdgeKind) : List NodeId :=
  NodeId.setOf ((g.incoming id kind).map (·.source))

/-- The types that declare a method or a field; files and types have none. -/
def declaringTypes (g : Graph) (id : NodeId) : List NodeId :=
  match (g.node? id).map Node.kind with
  | some .method => g.predecessors id .contains
  | some .field => g.predecessors id .hasField
  | _ => []

/-- The files that contain a type. -/
def declaringFiles (g : Graph) (typeId : NodeId) : List NodeId :=
  g.predecessors typeId .contains

end Graph

end Ripple
