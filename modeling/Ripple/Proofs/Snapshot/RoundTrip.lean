import Ripple.Proofs.Graph.Invariant
import Ripple.Proofs.Json.Document
import Ripple.Proofs.Lists
import Ripple.Snapshot.Database

/-!
# Ripple.Proofs.Snapshot.RoundTrip

A graph that is saved is loaded again as it was.

Saving writes columns, loading replays operations on a fresh builder, so the two meet in the middle:

* `NodeRow.symbol?` is what a row stands for, and `loadNode_run_of_new` adds exactly that to the
  graph when its key is new;
* `symbol?_ofNode` reads back the row of a node, lists included;
* `Fed` is the invariant of the replay: the builder holds a front of the nodes and of the edges.
  `Fed.node` and `Fed.edge` are its steps, `Fed.nodes` and `Fed.edges` the two loops.

`Database.load_save` puts them together, and adds that the rows respect the constraints of the
tables, so that none of them is turned away.
-/

namespace Ripple

open Std
open Builder (insertNode insertEdge update)

/-! ## graphs that queries cannot tell apart -/

/-- Two graphs with the same nodes, the same edges and the same lookups. -/
structure Graph.Agrees (g h : Graph) : Prop where
  nodes : g.nodes = h.nodes
  edges : g.edges = h.edges
  find? : ∀ kind key, g.find? kind key = h.find? kind key
  methodsNamed : ∀ name, g.methodsNamed name = h.methodsNamed name
  outgoing : ∀ id kind, g.outgoing id kind = h.outgoing id kind
  incoming : ∀ id kind, g.incoming id kind = h.incoming id kind

/-- The indices of a well-formed graph are determined by its nodes and edges. -/
theorem Graph.WellFormed.agrees {g h : Graph} (hg : g.WellFormed) (hh : h.WellFormed)
    (hnodes : g.nodes = h.nodes) (hedges : g.edges = h.edges) : g.Agrees h where
  nodes := hnodes
  edges := hedges
  find? kind key := by
    apply Option.ext
    intro id
    rw [hg.find?_iff, hh.find?_iff, Graph.node?, Graph.node?, hnodes]
  methodsNamed name := by
    rw [hg.methodsNamed_eq, hh.methodsNamed_eq, Graph.nodesOfKind, Graph.nodesOfKind, hnodes]
  outgoing id kind := by rw [hg.outgoing_eq, hh.outgoing_eq, hedges]
  incoming id kind := by rw [hg.incoming_eq, hh.incoming_eq, hedges]

/-- The texts of a code element that are kept as a list. -/
def Symbol.types : Symbol → List String
  | .file _ _ | .type _ _ => []
  | .field _ types => types
  | .method _ _ parameterTypes => parameterTypes

/-! ## operations on a fresh node -/

namespace Builder

open Ripple.Graph (Amendment)

/-- A node that was just added takes an amendment as if it had been added with it. -/
theorem update_insertNode (g : Graph) (s : Symbol) (a : Amendment) :
    update (insertNode g s) (g.nodes.size + 1) a.apply = insertNode g (a.apply s) := by
  obtain ⟨hkind, hkey, hname⟩ := a.apply_identity s
  have hplace : ((g.nodes.size : Int) + 1 - 1).toNat = g.nodes.size := by omega
  have hmodify : ∀ f : Node → Node, ∀ n, (g.nodes.push n).modify g.nodes.size f =
      g.nodes.push (f n) := by
    intro f n
    apply Array.ext
    · simp
    · intro i hi hi'
      simp only [Array.getElem_modify, Array.getElem_push]
      grind
  simp only [update, insertNode, hkind, hkey, hname, hplace, hmodify]

/-- The check before an amendment passes for a node that was just added. -/
theorem amend_run_of_new {g : Graph} {s : Symbol} {kind : NodeKind} (hkind : s.kind = kind)
    (a : Amendment) {b : Builder} (hopen : b.frozen = false) :
    (do
      expect (g.nodes.size + 1) kind
      modify fun b => { b with graph := update b.graph (g.nodes.size + 1) a.apply } :
        Ingest Unit).run { b with graph := insertNode g s } =
      (.ok (), { b with graph := insertNode g (a.apply s) }) := by
  rw [run_bind, expect_run]
  simp only [hopen, Bool.false_eq_true, if_false, Graph.node?_insertNode, if_true, Node.kind, hkind,
    run_modify, update_insertNode]

/-- The type of a new name is added with its path. -/
theorem upsertType_run_of_new {name filePath : String} {b : Builder} (hopen : b.frozen = false)
    (hkey : Text.isBlank name = false) (hnew : b.graph.find? .type name = none) :
    (upsertType name filePath).run b =
      (.ok (b.graph.nodes.size + 1),
        { b with graph := insertNode b.graph (.type name filePath) }) := by
  have hpath : withFilePath filePath (.type name filePath) = .type name filePath := by
    unfold withFilePath
    split <;> simp_all
  have hupdate := update_insertNode b.graph (.type name filePath) (.filePath filePath)
  simp only [Amendment.apply, hpath] at hupdate
  rw [upsertType, run_bind, upsert_run_of_new (s := .type name filePath) hopen hkey hnew]
  simp only [run_bind, run_modify, hupdate]
  rfl

/-- Types are recorded one after the other. -/
theorem setFieldTypes_run_of_new {g : Graph} (types : List String) {s : Symbol}
    (hkind : s.kind = .field) {b : Builder} (hopen : b.frozen = false) :
    (types.forM (setFieldType (g.nodes.size + 1))).run { b with graph := insertNode g s } =
      (.ok (),
        { b with graph := insertNode g (types.foldl (fun s t => withFieldType t s) s) }) := by
  induction types generalizing s with
  | nil => rfl
  | cons t types ih =>
      have hstep : (setFieldType (g.nodes.size + 1) t).run { b with graph := insertNode g s } =
          (.ok (), { b with graph := insertNode g (withFieldType t s) }) :=
        amend_run_of_new hkind (.fieldType t) hopen
      rw [List.forM, run_bind, hstep]
      exact ih (((Amendment.fieldType t).apply_identity s).1.trans hkind)

/-- An edge that is not there is added between nodes that its kind allows. -/
theorem addEdge_run_of_new {kind : EdgeKind} {source target : NodeId} {line : Int}
    {createdAt : Option Timestamp} {confidence : Float} {b : Builder} {s t : Node}
    (hopen : b.frozen = false) (hs : b.graph.node? source = some s)
    (ht : b.graph.node? target = some t) (hjoin : kind.joins s.kind t.kind = true)
    (hnew : ⟨kind, source, target, line⟩ ∉ b.graph.seen) :
    (addEdge (.kind kind) source target line createdAt confidence).run b =
      (.ok (), { b with graph := insertEdge b.graph ⟨b.graph.edges.size + 1, kind, source, target,
        line, createdAt.getD b.now, confidence⟩ }) := by
  simp [addEdge, ExceptT.run, hopen, hs, ht, hjoin, hnew]

end Builder

namespace Snapshot

open Builder

/-! ## rows and what they stand for -/

theorem ofLabel?_label (kind : NodeKind) : NodeKind.ofLabel? kind.label = some kind := by
  cases kind <;> rfl

theorem ofText_label (kind : EdgeKind) : EdgeLabel.ofText kind.label = .kind kind := by
  cases kind <;> rfl

/-- Words tell the kinds of node apart. -/
theorem nodeLabel_injective {k k' : NodeKind} (h : k.label = k'.label) : k = k' := by
  have hof := congrArg NodeKind.ofLabel? h
  rwa [ofLabel?_label, ofLabel?_label, Option.some.injEq] at hof

/-- Words tell the kinds of edge apart. -/
theorem edgeLabel_injective {k k' : EdgeKind} (h : k.label = k'.label) : k = k' := by
  have hof := congrArg EdgeLabel.ofText h
  rwa [ofText_label, ofText_label, EdgeLabel.kind.injEq] at hof

/-- What the row of a node stands for: nothing when its kind is unknown or its list unreadable. -/
def NodeRow.symbol? (row : NodeRow) : Option Symbol :=
  match NodeKind.ofLabel? row.kind with
  | some .file => some (.file row.name row.key)
  | some .type => some (.type row.key (row.filePath.getD ""))
  | some .field => (listOf row.fieldTypes).toOption.map fun types =>
    types.foldl (fun s t => withFieldType t s) (.field row.key [])
  | some .method => (listOf row.parameterTypes).toOption.map fun params =>
    .method row.key (row.returnType.getD "") params
  | none => none

theorem Loading.lift_run_of_ok {ε : Type} (f : GraphError → ε) {x : Ingest α} {b b' : Builder}
    {a : α} (h : x.run b = (.ok a, b')) : (Loading.lift f x).run b = (.ok a, b') := by
  change ((x.run b).1.mapError f, (x.run b).2) = _
  rw [h]
  rfl

theorem liftExcept_run {r : Except RowProblem α} {a : α} (h : r.toOption = some a) (b : Builder) :
    loadNode.liftExcept r b = (.ok a, b) := by
  cases r with
  | error e => contradiction
  | ok a' => cases h; rfl

theorem foldl_withFieldType_kind (types : List String) (s : Symbol) :
    (types.foldl (fun s t => withFieldType t s) s).kind = s.kind ∧
      (types.foldl (fun s t => withFieldType t s) s).key = s.key := by
  induction types generalizing s with
  | nil => exact ⟨rfl, rfl⟩
  | cons t types ih =>
      obtain ⟨hkind, hkey, -⟩ := (Graph.Amendment.fieldType t).apply_identity s
      exact ⟨(ih _).1.trans hkind, (ih _).2.trans hkey⟩

/-- A row whose key is new adds what it stands for. -/
theorem loadNode_run_of_new {row : NodeRow} {s : Symbol} (hrow : row.symbol? = some s)
    {b : Builder} (hopen : b.frozen = false) (hkey : Text.isBlank s.key = false)
    (hnew : b.graph.find? s.kind s.key = none) :
    (loadNode row).run b =
      (.ok (b.graph.nodes.size + 1), { b with graph := insertNode b.graph s }) := by
  unfold NodeRow.symbol? at hrow
  unfold loadNode
  cases hkind : NodeKind.ofLabel? row.kind with
  | none =>
      rw [hkind] at hrow
      cases hrow
  | some kind =>
      rw [hkind] at hrow
      cases kind with
      | file =>
          cases hrow
          exact Loading.lift_run_of_ok _ (upsert_run_of_new hopen hkey hnew)
      | type =>
          cases hrow
          exact Loading.lift_run_of_ok _ (upsertType_run_of_new hopen hkey hnew)
      | field =>
          obtain ⟨types, htypes, rfl⟩ := Option.map_eq_some_iff.mp hrow
          obtain ⟨hfield, hname⟩ := foldl_withFieldType_kind types (.field row.key [])
          rw [hname] at hkey hnew
          rw [hfield] at hnew
          refine (run_bind_of_ok (Loading.lift_run_of_ok _
            (upsert_run_of_new hopen hkey hnew))).trans ?_
          refine (run_bind_of_ok (liftExcept_run htypes _)).trans ?_
          exact run_bind_of_ok (Loading.lift_run_of_ok _
            (setFieldTypes_run_of_new types rfl hopen))
      | method =>
          obtain ⟨params, hparams, rfl⟩ := Option.map_eq_some_iff.mp hrow
          refine (run_bind_of_ok (Loading.lift_run_of_ok _
            (upsert_run_of_new (s := .method row.key "" []) hopen hkey hnew))).trans ?_
          refine (run_bind_of_ok (liftExcept_run hparams _)).trans ?_
          exact run_bind_of_ok (Loading.lift_run_of_ok _
            (amend_run_of_new rfl (.methodTypes (row.returnType.getD "") params) hopen))

/-- The rows after one that loads are loaded with its number known. -/
theorem loadNodes_cons_of_ok {ids : Renumbering} {row : NodeRow} {rest : List NodeRow} {id : NodeId}
    {b b' : Builder} (h : (loadNode row).run b = (.ok id, b')) :
    (loadNodes ids (row :: rest)).run b = (loadNodes (ids.insert row.id id) rest).run b' := by
  rw [loadNodes, ExceptT.run, h]
  rfl

/-! ## reading back what was written -/

@[simp] theorem NodeRow.ofNode_id (n : Node) : (NodeRow.ofNode n).id = n.id := by
  unfold ofNode
  split <;> rfl

@[simp] theorem NodeRow.ofNode_kind (n : Node) : (NodeRow.ofNode n).kind = n.kind.label := by
  unfold ofNode
  split <;> rfl

@[simp] theorem NodeRow.ofNode_key (n : Node) : (NodeRow.ofNode n).key = n.key := by
  unfold ofNode
  split <;> rfl

theorem getD_column (s : String) : (column s).getD "" = s := by
  unfold column
  split
  · next h => exact h.symm
  · rfl

theorem listOf_listColumn (items : List String) : listOf (listColumn items) = .ok items := by
  have htext := Json.texts?_parse?_compact items
  unfold listColumn
  split
  · next hempty => rw [List.isEmpty_iff.mp hempty]; rfl
  · unfold listOf
    split
    · contradiction
    · next h =>
        rw [Option.some.inj h] at htext
        cases htext
    · next h => rw [← Option.some.inj h, htext]

/-- Distinct types that are not empty are collected as they come. -/
theorem foldl_withFieldType_field (name : String) (before : List String) {types : List String}
    (hnodup : (before ++ types).Nodup) (hempty : "" ∉ types) :
    types.foldl (fun s t => withFieldType t s) (.field name before) =
      .field name (before ++ types) := by
  induction types generalizing before with
  | nil => rw [List.append_nil]; rfl
  | cons t types ih =>
      have ht : ¬(t = "" ∨ t ∈ before) := by
        rintro (rfl | hmem)
        · exact hempty List.mem_cons_self
        · exact (List.nodup_append.mp hnodup).2.2 t hmem t List.mem_cons_self rfl
      rw [List.foldl_cons, withFieldType, if_neg ht, ih]
      · rw [List.append_assoc, List.singleton_append]
      · rwa [List.append_assoc, List.singleton_append]
      · exact fun h => hempty (List.mem_cons_of_mem _ h)

/-- The row of a node stands for that node. -/
theorem symbol?_ofNode {n : Node} (htidy : n.symbol.Tidy) :
    (NodeRow.ofNode n).symbol? = some n.symbol := by
  obtain ⟨id, symbol⟩ := n
  cases symbol with
  | file name path => rfl
  | type name filePath => exact congrArg (fun p => some (Symbol.type name p)) (getD_column filePath)
  | field name types =>
      have hfold := foldl_withFieldType_field name [] htidy.1 htidy.2
      simp only [NodeRow.symbol?, NodeRow.ofNode, ofLabel?_label, Node.kind, Symbol.kind,
        listOf_listColumn]
      exact congrArg some hfold
  | method signature returnType parameterTypes =>
      simp only [NodeRow.symbol?, NodeRow.ofNode, ofLabel?_label, Node.kind, Symbol.kind,
        listOf_listColumn, getD_column]
      rfl

/-- A time that a column can hold. -/
def Fits (t : Int) : Prop := -(Word.half : Int) ≤ t ∧ t < Word.half

instance (t : Int) : Decidable (Fits t) :=
  inferInstanceAs (Decidable (-(Word.half : Int) ≤ t ∧ t < Word.half))

theorem timeColumn_eq {t : Int} (h : Fits t) : timeColumn t = t := by
  obtain ⟨hlow, hhigh⟩ := h
  have hcount : (Word.count : Int) = 2 * Word.half := by decide
  apply Int.bmod_eq_of_le_mul_two
  · omega
  · omega

/-- Nothing of a graph is lost in its columns: the times of its edges fit a word. -/
def Storable (g : Graph) : Prop := ∀ e ∈ g.edges, Fits e.createdAt

/-! ## the replay -/

/-- A builder that was fed these nodes and edges, and nothing else. -/
structure Fed (nodes : List Node) (edges : List Edge) (b : Builder) : Prop where
  unfrozen : b.frozen = false
  wellFormed : b.graph.WellFormed
  nodes_eq : b.graph.nodes.toList = nodes
  edges_eq : b.graph.edges.toList = edges

theorem fed_new (now : Timestamp) : Fed [] [] (Builder.new now) where
  unfrozen := rfl
  wellFormed := Graph.wellFormed_empty
  nodes_eq := rfl
  edges_eq := rfl

section
variable {g : Graph} (hg : g.WellFormed)
include hg

/-- The next node has a key that no node before it has. -/
theorem Fed.find?_eq_none {before rest : List Node} {n : Node} {edges : List Edge} {b : Builder}
    (h : g.nodes.toList = before ++ n :: rest) (hb : Fed before edges b) :
    b.graph.find? n.kind n.key = none := by
  cases hfind : b.graph.find? n.kind n.key with
  | none => rfl
  | some id =>
      obtain ⟨m, hm, hkind, hkey⟩ := (hb.wellFormed.find?_iff _ _ _).mp hfind
      have hmem : m ∈ before := by
        rw [← hb.nodes_eq, Array.mem_toList_iff]
        exact (hb.wellFormed.node?_iff.mp hm).1
      have hmg : m ∈ g.nodes := by
        rw [← Array.mem_toList_iff, h]
        exact List.mem_append_left _ hmem
      have hlt : m.id < n.id := by
        have hsorted := hg.nodes_pairwise
        rw [h] at hsorted
        exact (List.pairwise_append.mp hsorted).2.2 m hmem n List.mem_cons_self
      rw [hg.eq_of_key_eq hmg (mem_of_split h) hkind hkey] at hlt
      exact absurd hlt (Int.lt_irrefl _)

/-- One row of a node feeds the node, under its own number. -/
theorem Fed.node {before rest : List Node} {n : Node} {edges : List Edge} {b : Builder}
    (h : g.nodes.toList = before ++ n :: rest) (hrow : (NodeRow.ofNode n).symbol? = some n.symbol)
    (hb : Fed before edges b) :
    ∃ b', (loadNode (NodeRow.ofNode n)).run b = (.ok n.id, b') ∧ Fed (before ++ [n]) edges b' := by
  have hkey : Text.isBlank n.key = false := hg.key_not_blank n (mem_of_split h)
  have hnew := hb.find?_eq_none hg h
  have hid : n.id = b.graph.nodes.size + 1 := by
    obtain ⟨hlt, hn⟩ := getElem_of_split h
    rw [← hn, hg.node_id, ← hb.nodes_eq, Array.length_toList]
  refine ⟨{ b with graph := insertNode b.graph n.symbol }, ?_, ⟨hb.unfrozen,
    hb.wellFormed.insertNode n.symbol hkey hnew, ?_, hb.edges_eq⟩⟩
  · rw [loadNode_run_of_new hrow hb.unfrozen hkey hnew, hid]
  · simp only [insertNode, Array.toList_push, hb.nodes_eq, ← hid]

/-- One row of an edge feeds the edge, when all nodes are there. -/
theorem Fed.edge {before rest : List Edge} {e : Edge} {b : Builder} {ids : Renumbering}
    (h : g.edges.toList = before ++ e :: rest) (hfits : Fits e.createdAt)
    (hids : ∀ n ∈ g.nodes, ids.getD n.id 0 = n.id) (hb : Fed g.nodes.toList before b) :
    ∃ b', (loadEdge ids (EdgeRow.ofEdge e)).run b = (.ok (), b') ∧
      Fed g.nodes.toList (before ++ [e]) b' := by
  obtain ⟨s, t, hs, ht, hjoin⟩ := hg.joins e (mem_of_split h)
  have hsame : ∀ id, b.graph.node? id = g.node? id := by
    intro id
    rw [Graph.node?, Graph.node?, Array.toList_inj.mp hb.nodes_eq]
  have hsource : ids.getD e.source 0 = e.source := by
    obtain ⟨hmem, hid⟩ := hg.node?_iff.mp hs
    exact hid ▸ hids s hmem
  have htarget : ids.getD e.target 0 = e.target := by
    obtain ⟨hmem, hid⟩ := hg.node?_iff.mp ht
    exact hid ▸ hids t hmem
  have hid : e.id = b.graph.edges.size + 1 := by
    obtain ⟨hlt, he⟩ := getElem_of_split h
    rw [← he, hg.edge_id, ← hb.edges_eq, Array.length_toList]
  have hnew : e.key ∉ b.graph.seen := by
    intro hseen
    obtain ⟨d, hd, hkey⟩ := (hb.wellFormed.seen_iff _).mp hseen
    rw [← Array.mem_toList_iff, hb.edges_eq] at hd
    have hnodup := hg.edge_keys_nodup
    rw [h, List.map_append, List.nodup_append] at hnodup
    exact hnodup.2.2 d.key (List.mem_map_of_mem hd) e.key (by simp) hkey
  rw [← hsame] at hs ht
  refine ⟨{ b with graph := insertEdge b.graph e }, ?_, ⟨hb.unfrozen,
    hb.wellFormed.insertEdge e hid hs ht hjoin hnew, hb.nodes_eq, ?_⟩⟩
  · apply Loading.lift_run_of_ok
    simp only [EdgeRow.ofEdge, ofText_label, hsource, htarget, timeColumn_eq hfits]
    rw [addEdge_run_of_new hb.unfrozen hs ht hjoin hnew, ← hid]
    rfl
  · simp only [insertEdge, Array.toList_push, hb.edges_eq]

/-- All rows of nodes. -/
theorem Fed.nodes {before rest : List Node} {b : Builder} {ids : Renumbering}
    (h : g.nodes.toList = before ++ rest)
    (hrows : ∀ n ∈ g.nodes, (NodeRow.ofNode n).symbol? = some n.symbol)
    (hids : ∀ n ∈ before, ids.getD n.id 0 = n.id) (hb : Fed before [] b) :
    ∃ ids' b', (loadNodes ids (rest.map NodeRow.ofNode)).run b = (.ok ids', b') ∧
      Fed g.nodes.toList [] b' ∧ ∀ n ∈ g.nodes, ids'.getD n.id 0 = n.id := by
  induction rest generalizing before b ids with
  | nil =>
      rw [List.append_nil] at h
      refine ⟨ids, b, rfl, h ▸ hb, ?_⟩
      intro n hn
      exact hids n (h ▸ Array.mem_toList_iff.mpr hn)
  | cons n rest ih =>
      obtain ⟨b', hrun, hb'⟩ := hb.node hg h (hrows n (mem_of_split h))
      have hids' : ∀ m ∈ before ++ [n], (ids.insert n.id n.id).getD m.id 0 = m.id := by
        intro m hm
        rw [HashMap.getD_insert]
        split
        · next heq => exact beq_iff_eq.mp heq
        · next hne =>
            cases List.mem_append.mp hm with
            | inl hmem => exact hids m hmem
            | inr hmem =>
                rw [List.mem_singleton.mp hmem] at hne
                exact absurd BEq.rfl hne
      rw [List.map_cons, loadNodes_cons_of_ok hrun, NodeRow.ofNode_id]
      exact ih (by rw [h, List.append_assoc, List.singleton_append]) hids' hb'

/-- All rows of edges. -/
theorem Fed.edges {before rest : List Edge} {b : Builder} {ids : Renumbering}
    (h : g.edges.toList = before ++ rest) (hs : Storable g)
    (hids : ∀ n ∈ g.nodes, ids.getD n.id 0 = n.id) (hb : Fed g.nodes.toList before b) :
    ∃ b', ((rest.map EdgeRow.ofEdge).forM (loadEdge ids)).run b = (.ok (), b') ∧
      Fed g.nodes.toList g.edges.toList b' := by
  induction rest generalizing before b with
  | nil =>
      rw [List.append_nil] at h
      exact ⟨b, rfl, h ▸ hb⟩
  | cons e rest ih =>
      obtain ⟨b', hrun, hb'⟩ := hb.edge hg h (hs e (mem_of_split h)) hids
      rw [List.map_cons, List.forM, run_bind_of_ok hrun]
      exact ih (by rw [h, List.append_assoc, List.singleton_append]) hb'

/-- A stored graph is fed again as a whole. -/
theorem load_ofGraph (htidy : ∀ n ∈ g.nodes, n.symbol.Tidy) (hs : Storable g) (now : Timestamp) :
    ∃ b, (Tables.ofGraph g now).load = .ok b ∧ b.frozen = true ∧ b.graph.Agrees g := by
  have hrows : ∀ n ∈ g.nodes, (NodeRow.ofNode n).symbol? = some n.symbol :=
    fun n hn => symbol?_ofNode (htidy n hn)
  have hnodes : ((g.nodes.toList.map NodeRow.ofNode).mergeSort fun a b => decide (a.id ≤ b.id)) =
      g.nodes.toList.map NodeRow.ofNode := by
    apply List.mergeSort_of_pairwise
    rw [List.pairwise_map]
    simp only [NodeRow.ofNode_id]
    exact hg.nodes_pairwise.imp fun h => decide_eq_true (Int.le_of_lt h)
  have hedges : ((g.edges.toList.map EdgeRow.ofEdge).mergeSort fun a b => decide (a.id ≤ b.id)) =
      g.edges.toList.map EdgeRow.ofEdge := by
    apply List.mergeSort_of_pairwise
    rw [List.pairwise_map]
    exact hg.edges_pairwise.imp fun h => decide_eq_true (Int.le_of_lt h)
  obtain ⟨ids, b₁, hrun₁, hb₁, hids⟩ :=
    (fed_new 0).nodes hg (List.nil_append _).symm hrows (fun n hn => absurd hn List.not_mem_nil)
  obtain ⟨b₂, hrun₂, hb₂⟩ := hb₁.edges hg (List.nil_append _).symm hs hids
  have hload : (loadRows (.ofGraph g now)).run (Builder.new 0) = (.ok (), b₂) := by
    simp only [loadRows, Tables.ofGraph, hnodes, hedges]
    rw [run_bind_of_ok hrun₁, hrun₂]
  refine ⟨b₂.freeze, ?_, rfl, ?_⟩
  · rw [Tables.load, hload]
    rfl
  · exact hb₂.wellFormed.agrees hg (Array.toList_inj.mp hb₂.nodes_eq)
      (Array.toList_inj.mp hb₂.edges_eq)

end

/-! ## constraints of the tables -/

/-- The tables keep their constraints: numbers are distinct, no kind and key has two rows, nor has a
fact on a line, and edges end at nodes that are there. -/
structure Tables.Lawful (t : Tables) : Prop where
  node_ids : (t.nodes.map (·.id)).Nodup
  node_keys : (t.nodes.map fun r => (r.kind, r.key)).Nodup
  edge_ids : (t.edges.map (·.id)).Nodup
  edge_facts : (t.edges.map fun r => (r.kind, r.source, r.target, r.line)).Nodup
  ends : ∀ e ∈ t.edges, (∃ n ∈ t.nodes, n.id = e.source) ∧ ∃ n ∈ t.nodes, n.id = e.target

theorem lawful_ofGraph {g : Graph} (hg : g.WellFormed) (now : Timestamp) :
    (Tables.ofGraph g now).Lawful where
  node_ids := by
    simp only [Tables.ofGraph, List.map_map, Function.comp_def, NodeRow.ofNode_id]
    exact List.pairwise_map.mpr (hg.nodes_pairwise.imp fun h => Int.ne_of_lt h)
  node_keys := by
    simp only [Tables.ofGraph, List.map_map, Function.comp_def, NodeRow.ofNode_kind,
      NodeRow.ofNode_key]
    refine List.pairwise_map.mpr (hg.nodes_pairwise.imp_of_mem ?_)
    intro m n hm hn hlt heq
    obtain ⟨hkind, hkey⟩ := Prod.mk.inj heq
    rw [hg.eq_of_key_eq (Array.mem_toList_iff.mp hm) (Array.mem_toList_iff.mp hn)
      (nodeLabel_injective hkind) hkey] at hlt
    exact Int.lt_irrefl _ hlt
  edge_ids := by
    simp only [Tables.ofGraph, List.map_map, Function.comp_def]
    exact List.pairwise_map.mpr (hg.edges_pairwise.imp fun h => Int.ne_of_lt h)
  edge_facts := by
    simp only [Tables.ofGraph, List.map_map, Function.comp_def, EdgeRow.ofEdge]
    refine List.pairwise_map.mpr ((List.pairwise_map.mp hg.edge_keys_nodup).imp ?_)
    intro d e hne heq
    simp only [Prod.mk.injEq] at heq
    obtain ⟨hkind, hsource, htarget, hline⟩ := heq
    exact hne (by rw [Edge.key, Edge.key, edgeLabel_injective hkind, hsource, htarget, hline])
  ends r hr := by
    obtain ⟨e, he, rfl⟩ := List.mem_map.mp hr
    obtain ⟨s, t, hs, ht, -⟩ := hg.joins e (Array.mem_toList_iff.mp he)
    have hrow : ∀ {id n}, g.node? id = some n → ∃ r ∈ (Tables.ofGraph g now).nodes, r.id = id := by
      intro id n hn
      obtain ⟨hmem, hid⟩ := hg.node?_iff.mp hn
      exact ⟨_, List.mem_map_of_mem (Array.mem_toList_iff.mpr hmem),
        (NodeRow.ofNode_id n).trans hid⟩
    exact ⟨hrow hs, hrow ht⟩

/-! ## saving and loading -/

theorem Database.access_of_open {db : Database} (h : db.isOpen = true) :
    db.access false = .ok db.tables := by
  simp [access, h]

theorem Database.save_of_open {db : Database} (h : db.isOpen = true) (g : Graph) (now : Timestamp) :
    db.save false g now = .ok { db with tables := .ofGraph g now } := by
  rw [save, access_of_open h]
  rfl

/-- **Round trip**: whatever an open database holds, saving a graph replaces it by rows that keep
the constraints, and loading them gives the graph again, frozen: the same nodes and edges in the
same order, and the same lookups. -/
theorem Database.load_save {g : Graph} (hg : g.Built) (hs : Storable g) (db : Database)
    (hopen : db.isOpen = true) (now : Timestamp) :
    ∃ db' b, db.save false g now = .ok db' ∧ db'.tables.Lawful ∧ db'.load false = .ok b ∧
      b.frozen = true ∧ b.graph.Agrees g := by
  obtain ⟨b, hload, hfrozen, hagrees⟩ := load_ofGraph hg.wellFormed hg.tidy hs now
  refine ⟨{ db with tables := .ofGraph g now }, b, save_of_open hopen g now,
    lawful_ofGraph hg.wellFormed now, ?_, hfrozen, hagrees⟩
  have hstored : access { db with tables := .ofGraph g now } false = .ok (.ofGraph g now) :=
    access_of_open hopen
  rw [load, hstored]
  change (Tables.ofGraph g now).load.mapError LoadError.toFailure = .ok b
  rw [hload]
  rfl

/-- A class with a field under two types and a method, seen at the last time that fits. -/
def boxFacts : List Operation :=
  [.fact (.file "Box.java" "/src/Box.java"), .fact (.type "Box" "/src/Box.java"),
    .fact (.field "items"), .fact (.fieldType 3 "Map<K, \"V\">"), .fact (.fieldType 3 "int[]"),
    .fact (.method "put(K)"), .fact (.methodTypes 4 "V" ["K"]), .fact (.link .contains 1 2 1),
    .fact (.link .hasField 2 3 2), .fact (.link .contains 2 4 3), .fact (.link .writes 4 3 4)]

/-- The graph of these facts. -/
def boxGraph : Graph := (Builder.after boxFacts (Builder.new 0x7fffffffffffffff)).graph

/-- All facts are accepted. -/
theorem boxGraph_eq : boxGraph =
    [EdgeKey.mk .contains 1 2 1, ⟨.hasField, 2, 3, 2⟩, ⟨.contains, 2, 4, 3⟩,
      ⟨.writes, 4, 3, 4⟩].foldl
      (fun g k => insertEdge g ⟨g.edges.size + 1, k.kind, k.source, k.target, k.line,
        0x7fffffffffffffff, certain⟩)
      (update (insertNode (update (update (insertNode (update (insertNode (insertNode Graph.empty
        (.file "Box.java" "/src/Box.java")) (.type "Box" "/src/Box.java")) 2
        (withFilePath "/src/Box.java")) (.field "items" [])) 3 (withFieldType "Map<K, \"V\">")) 3
        (withFieldType "int[]")) (.method "put(K)" "" [])) 4 (withMethodTypes "V" ["K"])) := by
  simp [boxGraph, boxFacts, after, Operation.perform, ingest, run_map, upsertFile, upsertType,
    upsertField, upsertMethod, setFieldType, setMethodTypes, run_bind, run_modify,
    upsert_run_of_new, expect_run, link_run, Builder.new, Graph.node?_insertNode,
    Graph.find?_insertNode, Graph.node?_update, Text.isBlank, Symbol.key, Symbol.kind, Text.isBlankChar, Node.kind,
    EdgeKind.joins, withFilePath, withFieldType, withMethodTypes, Edge.key]

theorem boxGraph_nodes : boxGraph.nodes.toList =
    [⟨1, .file "Box.java" "/src/Box.java"⟩, ⟨2, .type "Box" "/src/Box.java"⟩,
      ⟨3, .field "items" ["Map<K, \"V\">", "int[]"]⟩, ⟨4, .method "put(K)" "V" ["K"]⟩] := by
  rw [boxGraph_eq]
  rfl

theorem boxGraph_storable : Storable boxGraph := by
  have htimes : ∀ e ∈ boxGraph.edges.toList, e.createdAt = 0x7fffffffffffffff := by
    rw [boxGraph_eq]
    simp
  intro e he
  rw [htimes e (Array.mem_toList_iff.mpr he)]
  decide

/-- A new database gives the graph back, the two types of the field in their order. -/
theorem boxGraph_load_save :
    boxGraph.Built ∧ Storable boxGraph ∧ Database.new.isOpen = true ∧
      ∃ db b, Database.new.save false boxGraph 0 = .ok db ∧ db.load false = .ok b ∧
        b.frozen = true ∧
          (⟨3, .field "items" ["Map<K, \"V\">", "int[]"]⟩ : Node) ∈ b.graph.nodes := by
  have hbuilt : boxGraph.Built := ⟨_, boxFacts, rfl⟩
  obtain ⟨db, b, hsave, -, hload, hfrozen, hagrees⟩ :=
    Database.load_save hbuilt boxGraph_storable .new rfl 0
  refine ⟨hbuilt, boxGraph_storable, rfl, db, b, hsave, hload, hfrozen, ?_⟩
  rw [hagrees.nodes, ← Array.mem_toList_iff, boxGraph_nodes]
  simp

end Snapshot

end Ripple
