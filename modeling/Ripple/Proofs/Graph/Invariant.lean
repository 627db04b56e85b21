import Ripple.Graph.Builder
import Ripple.Proofs.Steps
import Mathlib.Logic.Relation

/-!
# Ripple.Proofs.Graph.Invariant

The indices of a graph agree with its nodes and edges, whatever a builder is asked to do.

* `Graph.WellFormed` is the invariant: the two arrays are numbered in order, and each of the five
  indices is a function of them;
* `Edit` lists the four ways in which a graph can change, with what was checked before each;
* `perform_edits` shows that an operation, also one that fails, is a run of edits, and
  `WellFormed.edit` that an edit keeps the invariant.

So every graph that a builder holds is well formed (`Built.wellFormed`), which is what the queries
rely on; and the types of its fields are listed without repetition (`Built.tidy`), which is what
storing relies on.
-/

namespace Ripple

open Std
open Builder (insertNode insertEdge update)

namespace Graph

/-! ## lookups after a change -/

/-- A positive number and its place in the array of nodes. -/
theorem toNat_pred_eq_iff {id : Int} (h : 1 ≤ id) (i : Nat) : (id - 1).toNat = i ↔ id = i + 1 := by
  omega

/-- The number of an appended node is new, all others are found as before. -/
theorem node?_insertNode (g : Graph) (s : Symbol) (id : NodeId) :
    (insertNode g s).node? id = if id = g.nodes.size + 1 then some ⟨id, s⟩ else g.node? id := by
  unfold node? insertNode
  by_cases hid : 1 ≤ id
  · simp only [hid, if_true, Array.getElem?_push, toNat_pred_eq_iff hid]
    by_cases hnew : id = g.nodes.size + 1
    · rw [if_pos hnew, if_pos hnew, hnew]
    · rw [if_neg hnew, if_neg hnew]
  · have hold : id ≠ g.nodes.size + 1 :=
      fun h => hid (h ▸ Int.le_add_of_nonneg_left (Int.natCast_nonneg _))
    simp only [hid, if_false, if_neg hold]

theorem find?_insertNode (g : Graph) (s : Symbol) (kind : NodeKind) (key : String) :
    (insertNode g s).find? kind key =
      if s.kind = kind ∧ s.key = key then some (g.nodes.size + 1 : NodeId)
      else g.find? kind key := by
  simp only [find?, insertNode, HashMap.getElem?_insert, beq_iff_eq, Prod.mk.injEq]

theorem methodsNamed_insertNode (g : Graph) (s : Symbol) (name : String) :
    (insertNode g s).methodsNamed name =
      if s.kind = .method ∧ s.name = name then g.methodsNamed name ++ [(g.nodes.size + 1 : NodeId)]
      else g.methodsNamed name := by
  unfold methodsNamed insertNode
  by_cases hkind : s.kind = .method
  · by_cases hname : s.name = name
    · simp [hkind, hname, HashMap.getD_eq_getD_getElem?]
    · simp [hkind, hname, HashMap.getD_alter]
  · simp [hkind]

theorem node?_update (g : Graph) (id : NodeId) (f : Symbol → Symbol) (id' : NodeId) :
    (update g id f).node? id' =
      if (id - 1).toNat = (id' - 1).toNat then
        (g.node? id').map (fun n => { n with symbol := f n.symbol })
      else g.node? id' := by
  unfold node? update
  by_cases hid : 1 ≤ id'
  · simp only [hid, if_true, Array.getElem?_modify]
  · simp only [hid, if_false, Option.map_none, ite_self]

theorem outgoing_insertEdge (g : Graph) (e : Edge) (id : NodeId) (kind : EdgeKind) :
    (insertEdge g e).outgoing id kind =
      if e.kind = kind ∧ e.source = id then g.outgoing id kind ++ [e] else g.outgoing id kind := by
  unfold outgoing insertEdge
  by_cases hk : e.kind = kind ∧ e.source = id
  · obtain ⟨rfl, rfl⟩ := hk
    simp [HashMap.getD_eq_getD_getElem?]
  · simp [hk, HashMap.getD_alter]

theorem incoming_insertEdge (g : Graph) (e : Edge) (id : NodeId) (kind : EdgeKind) :
    (insertEdge g e).incoming id kind =
      if e.kind = kind ∧ e.target = id then g.incoming id kind ++ [e] else g.incoming id kind := by
  unfold incoming insertEdge
  by_cases hk : e.kind = kind ∧ e.target = id
  · obtain ⟨rfl, rfl⟩ := hk
    simp [HashMap.getD_eq_getD_getElem?]
  · simp [hk, HashMap.getD_alter]

@[simp] theorem node?_empty (id : NodeId) : empty.node? id = none := by
  simp [node?, empty]

@[simp] theorem find?_empty (kind : NodeKind) (key : String) : empty.find? kind key = none := by
  simp [find?, empty]

@[simp] theorem seen_empty : empty.seen = ∅ := rfl

@[simp] theorem edges_empty : empty.edges = #[] := rfl

@[simp] theorem size_nodes_empty : empty.nodes.size = 0 := rfl

@[simp] theorem size_nodes_insertNode (g : Graph) (s : Symbol) :
    (insertNode g s).nodes.size = g.nodes.size + 1 :=
  Array.size_push _

@[simp] theorem seen_insertNode (g : Graph) (s : Symbol) : (insertNode g s).seen = g.seen := rfl

@[simp] theorem edges_insertNode (g : Graph) (s : Symbol) : (insertNode g s).edges = g.edges := rfl

@[simp] theorem size_nodes_update (g : Graph) (id : NodeId) (f : Symbol → Symbol) :
    (update g id f).nodes.size = g.nodes.size :=
  Array.size_modify

@[simp] theorem find?_update (g : Graph) (id : NodeId) (f : Symbol → Symbol) (kind : NodeKind)
    (key : String) : (update g id f).find? kind key = g.find? kind key := rfl

@[simp] theorem seen_update (g : Graph) (id : NodeId) (f : Symbol → Symbol) :
    (update g id f).seen = g.seen := rfl

@[simp] theorem edges_update (g : Graph) (id : NodeId) (f : Symbol → Symbol) :
    (update g id f).edges = g.edges := rfl

@[simp] theorem node?_insertEdge (g : Graph) (e : Edge) (id : NodeId) :
    (insertEdge g e).node? id = g.node? id := rfl

@[simp] theorem find?_insertEdge (g : Graph) (e : Edge) (kind : NodeKind) (key : String) :
    (insertEdge g e).find? kind key = g.find? kind key := rfl

@[simp] theorem seen_insertEdge (g : Graph) (e : Edge) :
    (insertEdge g e).seen = g.seen.insert e.key := rfl

@[simp] theorem edges_insertEdge (g : Graph) (e : Edge) :
    (insertEdge g e).edges = g.edges.push e := rfl

/-! ## the invariant -/

/-- The arrays are numbered in order, every edge joins nodes that its kind allows, and the indices
hold what the arrays hold. -/
structure WellFormed (g : Graph) : Prop where
  /-- Nodes are numbered from 1, in order. -/
  node_id : ∀ i (h : i < g.nodes.size), g.nodes[i].id = i + 1
  key_not_blank : ∀ n ∈ g.nodes, Text.isBlank n.key = false
  /-- A kind and key lead to the number of the node that has them, and to no other. -/
  find?_iff : ∀ kind key id, g.find? kind key = some id ↔
    ∃ n, g.node? id = some n ∧ n.kind = kind ∧ n.key = key
  methodsNamed_eq : ∀ name, g.methodsNamed name =
    ((g.nodesOfKind .method).filter (·.name == name)).map (·.id)
  /-- Edges are numbered from 1, in order. -/
  edge_id : ∀ j (h : j < g.edges.size), g.edges[j].id = j + 1
  joins : ∀ e ∈ g.edges, ∃ s t, g.node? e.source = some s ∧ g.node? e.target = some t ∧
    e.kind.joins s.kind t.kind = true
  /-- The same fact on the same line is one edge. -/
  edge_keys_nodup : (g.edges.toList.map Edge.key).Nodup
  seen_iff : ∀ k, k ∈ g.seen ↔ ∃ e ∈ g.edges, e.key = k
  outgoing_eq : ∀ id kind, g.outgoing id kind =
    g.edges.toList.filter fun e => e.kind = kind ∧ e.source = id
  incoming_eq : ∀ id kind, g.incoming id kind =
    g.edges.toList.filter fun e => e.kind = kind ∧ e.target = id

theorem wellFormed_empty : WellFormed empty where
  node_id i h := absurd h (Nat.not_lt_zero i)
  key_not_blank n h := absurd h (Array.not_mem_empty n)
  find?_iff kind key id := by simp [find?, empty, node?]
  methodsNamed_eq name := by simp [methodsNamed, nodesOfKind, empty]
  edge_id j h := absurd h (Nat.not_lt_zero j)
  joins e h := absurd h (Array.not_mem_empty e)
  edge_keys_nodup := List.nodup_nil
  seen_iff k := by simp [empty]
  outgoing_eq id kind := by simp [outgoing, empty]
  incoming_eq id kind := by simp [incoming, empty]

/-! ## what an edit keeps -/

/-- A number that is found lies between 1 and the number of nodes. -/
theorem node?_bounds {g : Graph} {id : NodeId} {n : Node} (h : g.node? id = some n) :
    1 ≤ id ∧ (id - 1).toNat < g.nodes.size := by
  unfold node? at h
  split at h
  · next hid => exact ⟨hid, (Array.getElem?_eq_some_iff.mp h).1⟩
  · contradiction

/-- The number of the next node is not taken. -/
theorem node?_size_succ (g : Graph) : g.node? (g.nodes.size + 1) = none := by
  cases h : g.node? (g.nodes.size + 1) with
  | none => rfl
  | some n =>
      have hlt := (node?_bounds h).2
      rw [(toNat_pred_eq_iff (node?_bounds h).1 g.nodes.size).mpr rfl] at hlt
      exact absurd hlt (Nat.lt_irrefl _)

/-- Adding a node loses none. -/
theorem node?_insertNode_of_some {g : Graph} {id : NodeId} {n : Node} (s : Symbol)
    (h : g.node? id = some n) : (insertNode g s).node? id = some n := by
  rw [node?_insertNode, if_neg]
  · exact h
  · intro hid
    rw [hid, node?_size_succ] at h
    contradiction

theorem WellFormed.insertNode {g : Graph} (hg : g.WellFormed) (s : Symbol)
    (hkey : Text.isBlank s.key = false) (hnew : g.find? s.kind s.key = none) :
    (insertNode g s).WellFormed where
  node_id i h := by
    simp only [Builder.insertNode, Array.size_push] at h
    simp only [Builder.insertNode, Array.getElem_push]
    split
    · next hi => exact hg.node_id i hi
    · next hi =>
        have hlast : i = g.nodes.size := by omega
        rw [hlast]
  key_not_blank n hn := by
    simp only [Builder.insertNode, Array.mem_push] at hn
    cases hn with
    | inl hold => exact hg.key_not_blank n hold
    | inr hlast => rw [hlast]; exact hkey
  find?_iff kind key id := by
    rw [find?_insertNode, node?_insertNode]
    by_cases hid : id = g.nodes.size + 1
    · -- the new number: an old entry for it would make it taken
      have hold : g.find? kind key ≠ some id := by
        intro h
        obtain ⟨n, hn, -⟩ := (hg.find?_iff kind key id).mp h
        rw [hid, node?_size_succ] at hn
        contradiction
      by_cases hk : s.kind = kind ∧ s.key = key
      · simp [hk, hid, Node.kind, Node.key]
      · rw [if_neg hk, if_pos hid]
        constructor
        · intro h
          exact absurd h hold
        · rintro ⟨n, hn, hkind, hkey⟩
          cases hn
          exact absurd ⟨hkind, hkey⟩ hk
    · rw [if_neg hid, ← hg.find?_iff]
      by_cases hk : s.kind = kind ∧ s.key = key
      · rw [if_pos hk, ← hk.1, ← hk.2, hnew]
        simp [Ne.symm hid]
      · rw [if_neg hk]
  methodsNamed_eq name := by
    rw [methodsNamed_insertNode, hg.methodsNamed_eq]
    by_cases hkind : s.kind = .method
    · by_cases hname : s.name = name
      · simp [nodesOfKind, Builder.insertNode, Node.kind, Node.name, hkind, hname]
      · simp [nodesOfKind, Builder.insertNode, Node.kind, Node.name, hkind, hname]
    · simp [nodesOfKind, Builder.insertNode, Node.kind, hkind]
  edge_id := hg.edge_id
  joins e he := by
    obtain ⟨a, b, ha, hb, hab⟩ := hg.joins e he
    exact ⟨a, b, node?_insertNode_of_some s ha, node?_insertNode_of_some s hb, hab⟩
  edge_keys_nodup := hg.edge_keys_nodup
  seen_iff := hg.seen_iff
  outgoing_eq := hg.outgoing_eq
  incoming_eq := hg.incoming_eq

theorem WellFormed.insertEdge {g : Graph} (hg : g.WellFormed) (e : Edge) {s t : Node}
    (hid : e.id = g.edges.size + 1) (hs : g.node? e.source = some s)
    (ht : g.node? e.target = some t) (hjoin : e.kind.joins s.kind t.kind = true)
    (hnew : e.key ∉ g.seen) : (insertEdge g e).WellFormed where
  node_id := hg.node_id
  key_not_blank := hg.key_not_blank
  find?_iff := hg.find?_iff
  methodsNamed_eq := hg.methodsNamed_eq
  edge_id j h := by
    simp only [Builder.insertEdge, Array.size_push] at h
    simp only [Builder.insertEdge, Array.getElem_push]
    split
    · next hj => exact hg.edge_id j hj
    · next hj =>
        have hlast : j = g.edges.size := by omega
        rw [hlast, hid]
  joins d hd := by
    simp only [Builder.insertEdge, Array.mem_push] at hd
    cases hd with
    | inl hold => exact hg.joins d hold
    | inr hlast => rw [hlast]; exact ⟨s, t, hs, ht, hjoin⟩
  edge_keys_nodup := by
    have hfresh : ∀ d ∈ g.edges, d.key ≠ e.key :=
      fun d hd h => hnew ((hg.seen_iff e.key).mpr ⟨d, hd, h⟩)
    simp only [Builder.insertEdge, Array.toList_push, List.map_append, List.nodup_append]
    refine ⟨hg.edge_keys_nodup, by simp, ?_⟩
    intro a ha b hb
    obtain ⟨d, hd, rfl⟩ := List.mem_map.mp ha
    rw [List.map_singleton, List.mem_singleton] at hb
    rw [hb]
    exact hfresh d (Array.mem_toList_iff.mp hd)
  seen_iff k := by
    simp only [Builder.insertEdge, HashSet.mem_insert, beq_iff_eq, hg.seen_iff, Array.mem_push]
    grind
  outgoing_eq id kind := by
    rw [outgoing_insertEdge, hg.outgoing_eq]
    by_cases hk : e.kind = kind ∧ e.source = id
    · simp [Builder.insertEdge, hk]
    · simp [Builder.insertEdge, hk]
  incoming_eq id kind := by
    rw [incoming_insertEdge, hg.incoming_eq]
    by_cases hk : e.kind = kind ∧ e.target = id
    · simp [Builder.insertEdge, hk]
    · simp [Builder.insertEdge, hk]

/-- What is recorded about a node after it was added. -/
inductive Amendment where
  | filePath (path : String)
  | fieldType (text : String)
  | methodTypes (returnType : String) (parameterTypes : List String)

/-- An amendment concerns one kind of code element and leaves the others as they are. -/
def Amendment.apply : Amendment → Symbol → Symbol
  | filePath path => Builder.withFilePath path
  | fieldType text => Builder.withFieldType text
  | methodTypes returnType parameterTypes => Builder.withMethodTypes returnType parameterTypes

/-- An amendment keeps what a node is found by. -/
theorem Amendment.apply_identity (a : Amendment) (s : Symbol) :
    (a.apply s).kind = s.kind ∧ (a.apply s).key = s.key ∧ (a.apply s).name = s.name := by
  cases a with
  | filePath path =>
      simp only [apply, Builder.withFilePath]
      split <;> exact ⟨rfl, rfl, rfl⟩
  | fieldType text =>
      simp only [apply, Builder.withFieldType]
      split
      · split <;> exact ⟨rfl, rfl, rfl⟩
      · exact ⟨rfl, rfl, rfl⟩
  | methodTypes returnType parameterTypes =>
      simp only [apply, Builder.withMethodTypes]
      split <;> exact ⟨rfl, rfl, rfl⟩

/-- A node with what is known about it amended. -/
def Amendment.node (a : Amendment) (n : Node) : Node := { n with symbol := a.apply n.symbol }

@[simp] theorem Amendment.node_id (a : Amendment) (n : Node) : (a.node n).id = n.id := rfl

@[simp] theorem Amendment.node_kind (a : Amendment) (n : Node) : (a.node n).kind = n.kind :=
  (a.apply_identity n.symbol).1

@[simp] theorem Amendment.node_key (a : Amendment) (n : Node) : (a.node n).key = n.key :=
  (a.apply_identity n.symbol).2.1

@[simp] theorem Amendment.node_name (a : Amendment) (n : Node) : (a.node n).name = n.name :=
  (a.apply_identity n.symbol).2.2

/-- An amended graph has the same node under each number, amended or not. -/
theorem node?_amend (g : Graph) (id : NodeId) (a : Amendment) (id' : NodeId) :
    (update g id a.apply).node? id' =
      (g.node? id').map (if (id - 1).toNat = (id' - 1).toNat then a.node else fun n => n) := by
  rw [node?_update]
  split
  · rfl
  · exact Option.map_id'.symm

/-- A function of nodes that an amendment keeps sees no difference in the amended list. -/
theorem filter_map_modify {p : Node → Bool} {q : Node → β} {f : Node → Node}
    (hp : ∀ n, p (f n) = p n) (hq : ∀ n, q (f n) = q n) (l : List Node) (i : Nat) :
    ((l.modify i f).filter p).map q = (l.filter p).map q := by
  induction l generalizing i with
  | nil => simp
  | cons n l ih =>
      cases i with
      | zero => by_cases h : p n <;> simp [hp, hq, h]
      | succ i => by_cases h : p n <;> simp [h, ih]

theorem WellFormed.amend {g : Graph} (hg : g.WellFormed) (id : NodeId) (a : Amendment) :
    (update g id a.apply).WellFormed where
  node_id i h := by
    simp only [update, Array.size_modify] at h
    simp only [update, Array.getElem_modify]
    split <;> exact hg.node_id i h
  key_not_blank n hn := by
    obtain ⟨i, hi, rfl⟩ := Array.mem_iff_getElem.mp hn
    simp only [update, Array.size_modify] at hi
    simp only [update, Array.getElem_modify]
    have hold := hg.key_not_blank _ (Array.getElem_mem hi)
    split
    · exact (a.node_key _).symm ▸ hold
    · exact hold
  find?_iff kind key id' := by
    refine (hg.find?_iff kind key id').trans ?_
    rw [node?_amend]
    cases g.node? id' <;> split <;> simp
  methodsNamed_eq name := by
    refine (hg.methodsNamed_eq name).trans ?_
    simp only [nodesOfKind, update, Array.toList_modify, List.filter_filter]
    refine (filter_map_modify ?_ ?_ _ _).symm
    · intro n
      exact congrArg₂ (fun x y => x == name && y == NodeKind.method) (a.node_name n) (a.node_kind n)
    · exact a.node_id
  edge_id := hg.edge_id
  joins e he := by
    obtain ⟨s, t, hs, ht, hjoin⟩ := hg.joins e he
    rw [node?_amend, node?_amend, hs, ht]
    refine ⟨_, _, rfl, rfl, ?_⟩
    split <;> split <;> simpa using hjoin
  edge_keys_nodup := hg.edge_keys_nodup
  seen_iff := hg.seen_iff
  outgoing_eq := hg.outgoing_eq
  incoming_eq := hg.incoming_eq

/-! ## edits -/

end Graph

/-- The declared types of a field are distinct, and none is the empty text. -/
def Symbol.Tidy : Symbol → Prop
  | .field _ types => types.Nodup ∧ "" ∉ types
  | .file _ _ | .type _ _ | .method _ _ _ => True

namespace Graph

/-- The ways in which a graph changes, with what was checked before. -/
inductive Edit (g : Graph) : Graph → Prop where
  | clear : Edit g empty
  | node (s : Symbol) (hkey : Text.isBlank s.key = false) (hnew : g.find? s.kind s.key = none)
    (htidy : s.Tidy) : Edit g (insertNode g s)
  | amend (id : NodeId) (n : Node) (hn : g.node? id = some n) (a : Amendment) :
    Edit g (update g id a.apply)
  | edge (e : Edge) (s t : Node) (hid : e.id = g.edges.size + 1) (hs : g.node? e.source = some s)
    (ht : g.node? e.target = some t) (hjoin : e.kind.joins s.kind t.kind = true)
    (hnew : e.key ∉ g.seen) : Edit g (insertEdge g e)

theorem WellFormed.edit {g g' : Graph} (hg : g.WellFormed) (h : Edit g g') : g'.WellFormed := by
  cases h with
  | clear => exact wellFormed_empty
  | node s hkey hnew htidy => exact hg.insertNode s hkey hnew
  | amend id n hn a => exact hg.amend id a
  | edge e s t hid hs ht hjoin hnew => exact hg.insertEdge e hid hs ht hjoin hnew

theorem Amendment.apply_tidy (a : Amendment) {s : Symbol} (h : s.Tidy) : (a.apply s).Tidy := by
  cases a with
  | filePath path =>
      simp only [apply, Builder.withFilePath]
      split
      · exact h
      · exact h
  | fieldType text =>
      simp only [apply, Builder.withFieldType]
      split
      · next name types =>
          obtain ⟨hnodup, hempty⟩ := h
          split
          · exact ⟨hnodup, hempty⟩
          · next hnew =>
              obtain ⟨htext, hmem⟩ := not_or.mp hnew
              refine ⟨?_, ?_⟩
              · rw [List.nodup_append]
                refine ⟨hnodup, by simp, ?_⟩
                intro a ha b hb heq
                exact hmem (List.mem_singleton.mp hb ▸ heq ▸ ha)
              · simpa [hempty] using Ne.symm htext
      · exact h
  | methodTypes returnType parameterTypes =>
      simp only [apply, Builder.withMethodTypes]
      split
      · trivial
      · exact h

/-- What is known about the nodes stays tidy. -/
theorem Edit.tidy {g g' : Graph} (hg : ∀ n ∈ g.nodes, n.symbol.Tidy) (h : Edit g g') :
    ∀ n ∈ g'.nodes, n.symbol.Tidy := by
  cases h with
  | clear => exact fun n hn => absurd hn (Array.not_mem_empty n)
  | node s hkey hnew htidy =>
      intro n hn
      cases Array.mem_push.mp hn with
      | inl hold => exact hg n hold
      | inr hlast => rw [hlast]; exact htidy
  | amend id n hn a =>
      intro m hm
      obtain ⟨i, hi, rfl⟩ := Array.mem_iff_getElem.mp hm
      simp only [update, Array.size_modify] at hi
      simp only [update, Array.getElem_modify]
      have hold := hg _ (Array.getElem_mem hi)
      split
      · exact a.apply_tidy hold
      · exact hold
  | edge e s t hid hs ht hjoin hnew => exact hg

/-- A run of edits. -/
abbrev Edits : Graph → Graph → Prop := Relation.ReflTransGen Edit

theorem WellFormed.edits {g g' : Graph} (hg : g.WellFormed) (h : Edits g g') : g'.WellFormed := by
  induction h with
  | refl => exact hg
  | tail _ hstep ih => exact ih.edit hstep

theorem Edits.tidy {g g' : Graph} (hg : ∀ n ∈ g.nodes, n.symbol.Tidy) (h : Edits g g') :
    ∀ n ∈ g'.nodes, n.symbol.Tidy := by
  induction h with
  | refl => exact hg
  | tail _ hstep ih => exact hstep.tidy ih

end Graph

/-! ## operations -/

/-- Whatever can happen to a builder: a fact arrives, all facts are dropped, the graph is frozen, or
time passes. -/
inductive Operation where
  | fact (f : Fact)
  | clear
  | freeze
  | tick (now : Timestamp)

/-- Performs an operation; upserts answer with the number of their node. -/
def Operation.perform : Operation → Ingest (Option NodeId)
  | fact f => Builder.ingest f
  | clear => (fun _ => none) <$> Builder.clear
  | freeze => fun b => (.ok none, b.freeze)
  | tick now => fun b => (.ok none, { b with now := now })

namespace Builder

open Ripple.Graph (Edit Edits Amendment)

/-- The builder after some operations, the failed ones included. -/
def after (ops : List Operation) (b : Builder) : Builder :=
  ops.foldl (fun b op => (op.perform.run b).2) b

theorem run_map (f : α → β) (x : Ingest α) (b : Builder) :
    (f <$> x).run b = ((x.run b).1.map f, (x.run b).2) := by
  rw [map_eq_pure_bind, run_bind]
  rcases x.run b with ⟨_ | a, b'⟩ <;> rfl

theorem run_map_of_ok (f : α → β) {x : Ingest α} {b b' : Builder} {a : α}
    (h : x.run b = (.ok a, b')) : (f <$> x).run b = (.ok (f a), b') := by
  rw [run_map, h]
  rfl

/-- An answer in another form comes from an answer. -/
theorem run_map_eq_ok {f : α → β} {x : Ingest α} {b b' : Builder} {y : β}
    (h : (f <$> x).run b = (.ok y, b')) : ∃ a, x.run b = (.ok a, b') ∧ f a = y := by
  rw [run_map] at h
  rcases hx : x.run b with ⟨e | a, b₁⟩
  · rw [hx] at h
    cases h
  · rw [hx] at h
    cases h
    exact ⟨a, rfl, rfl⟩

theorem run_modify (f : Builder → Builder) (b : Builder) :
    (modify f : Ingest Unit).run b = (.ok (), f b) := rfl

/-- An upsert adds the node of a key that is given and new. -/
theorem upsert_run_of_new {s : Symbol} {b : Builder} (hopen : b.frozen = false)
    (hkey : Text.isBlank s.key = false) (hnew : b.graph.find? s.kind s.key = none) :
    (upsert s).run b =
      (.ok (b.graph.nodes.size + 1), { b with graph := insertNode b.graph s }) := by
  simp [upsert, ExceptT.run, hopen, hkey, hnew]

/-- An upsert finds the node of a key that is there. -/
theorem upsert_run_of_found {s : Symbol} {b : Builder} {id : NodeId} (hopen : b.frozen = false)
    (hkey : Text.isBlank s.key = false) (hfind : b.graph.find? s.kind s.key = some id) :
    (upsert s).run b = (.ok id, b) := by
  simp [upsert, ExceptT.run, hopen, hkey, hfind]

theorem expect_run (id : NodeId) (kind : NodeKind) (b : Builder) :
    (expect id kind).run b =
      if b.frozen then (.error .frozen, b)
      else
        match b.graph.node? id with
        | none => (.error (.missing id), b)
        | some n =>
          if n.kind = kind then (.ok (), b) else (.error (.wrongKind id n.kind kind), b) :=
  rfl

theorem link_run (kind : EdgeKind) (source target : NodeId) (line : Int) (b : Builder) :
    (link kind source target line).run b =
      if b.frozen then (.error .frozen, b)
      else
        match b.graph.node? source, b.graph.node? target with
        | none, _ => (.error (.missingSource kind.label source), b)
        | some _, none => (.error (.missingTarget kind.label target), b)
        | some s, some t =>
          if kind.joins s.kind t.kind then
            if ⟨kind, source, target, line⟩ ∈ b.graph.seen then (.ok (), b)
            else (.ok (), { b with graph := insertEdge b.graph ⟨b.graph.edges.size + 1, kind,
              source, target, line, b.now, certain⟩ })
          else (.error (.badEndpoints kind.label s.kind t.kind), b) := by
  simp only [link, addEdge, ExceptT.run, HashSet.contains_iff_mem]
  cases b.graph.node? source <;> cases b.graph.node? target <;> rfl

/-- An upsert is refused, finds its node, or adds it. -/
theorem upsert_cases (s : Symbol) (b : Builder) :
    (∃ e, (upsert s).run b = (.error e, b)) ∨
    (∃ id, b.graph.find? s.kind s.key = some id ∧ (upsert s).run b = (.ok id, b)) ∨
    (Text.isBlank s.key = false ∧ b.graph.find? s.kind s.key = none ∧
      (upsert s).run b =
        (.ok (b.graph.nodes.size + 1), { b with graph := insertNode b.graph s })) := by
  unfold upsert
  by_cases hfrozen : b.frozen
  · exact .inl ⟨.frozen, if_pos hfrozen⟩
  · by_cases hblank : Text.isBlank s.key
    · exact .inl ⟨.emptyKey s.kind, by simp [ExceptT.run, hfrozen, hblank]⟩
    · cases hfind : b.graph.find? s.kind s.key with
      | some id => exact .inr (.inl ⟨id, rfl, by simp [ExceptT.run, hfrozen, hblank, hfind]⟩)
      | none =>
          exact .inr (.inr ⟨by simpa using hblank, rfl,
            by simp [ExceptT.run, hfrozen, hblank, hfind]⟩)

/-- A check of a node changes nothing, and when it passes the node is there. -/
theorem expect_cases (id : NodeId) (kind : NodeKind) (b : Builder) :
    (∃ e, (expect id kind).run b = (.error e, b)) ∨
    (∃ n, b.graph.node? id = some n ∧ n.kind = kind ∧ (expect id kind).run b = (.ok (), b)) := by
  unfold expect
  by_cases hfrozen : b.frozen
  · exact .inl ⟨.frozen, if_pos hfrozen⟩
  · cases hnode : b.graph.node? id with
    | none => exact .inl ⟨.missing id, by simp [ExceptT.run, hfrozen, hnode]⟩
    | some n =>
        by_cases hkind : n.kind = kind
        · exact .inr ⟨n, rfl, hkind, by simp [ExceptT.run, hfrozen, hnode, hkind]⟩
        · exact .inl ⟨.wrongKind id n.kind kind, by simp [ExceptT.run, hfrozen, hnode, hkind]⟩

/-- An edge is refused, is there already, or is added. -/
theorem addEdge_cases (label : EdgeLabel) (source target : NodeId) (line : Int)
    (createdAt : Option Timestamp) (confidence : Float) (b : Builder) :
    (∃ e, (addEdge label source target line createdAt confidence).run b = (.error e, b)) ∨
    (∃ kind s t, label = .kind kind ∧ b.graph.node? source = some s ∧
      b.graph.node? target = some t ∧ kind.joins s.kind t.kind = true ∧
      ((⟨kind, source, target, line⟩ ∈ b.graph.seen ∧
        (addEdge label source target line createdAt confidence).run b = (.ok (), b)) ∨
      (⟨kind, source, target, line⟩ ∉ b.graph.seen ∧
        (addEdge label source target line createdAt confidence).run b =
          (.ok (), { b with graph := insertEdge b.graph ⟨b.graph.edges.size + 1, kind, source,
            target, line, createdAt.getD b.now, confidence⟩ })))) := by
  unfold addEdge
  by_cases hfrozen : b.frozen
  · exact .inl ⟨.frozen, if_pos hfrozen⟩
  · cases hs : b.graph.node? source with
    | none => exact .inl ⟨.missingSource label.text source, by simp [ExceptT.run, hfrozen, hs]⟩
    | some s =>
        cases ht : b.graph.node? target with
        | none =>
            exact .inl ⟨.missingTarget label.text target, by simp [ExceptT.run, hfrozen, hs, ht]⟩
        | some t =>
            cases label with
            | other text =>
                exact .inl ⟨.badEndpoints text s.kind t.kind,
                  by simp [ExceptT.run, hfrozen, hs, ht]⟩
            | kind k =>
                by_cases hjoin : k.joins s.kind t.kind
                · refine .inr ⟨k, s, t, rfl, rfl, rfl, hjoin, ?_⟩
                  by_cases hseen : ⟨k, source, target, line⟩ ∈ b.graph.seen
                  · exact .inl ⟨hseen, by simp [ExceptT.run, hfrozen, hs, ht, hjoin, hseen]⟩
                  · exact .inr ⟨hseen, by simp [ExceptT.run, hfrozen, hs, ht, hjoin, hseen]⟩
                · exact .inl ⟨.badEndpoints k.label s.kind t.kind,
                    by simp [ExceptT.run, hfrozen, hs, ht, hjoin]⟩

theorem upsert_edits (s : Symbol) (htidy : s.Tidy) (b : Builder) :
    Edits b.graph ((upsert s).run b).2.graph := by
  obtain ⟨e, h⟩ | ⟨id, -, h⟩ | ⟨hkey, hnew, h⟩ := upsert_cases s b
  · rw [h]
  · rw [h]
  · rw [h]
    exact .single (.node s hkey hnew htidy)

/-- The path of a type is an amendment of the node that was found or added. -/
theorem upsertType_edits (name filePath : String) {b : Builder} (hg : b.graph.WellFormed) :
    Edits b.graph ((upsertType name filePath).run b).2.graph := by
  unfold upsertType
  rw [run_bind]
  obtain ⟨e, h⟩ | ⟨id, hfind, h⟩ | ⟨hkey, hnew, h⟩ := upsert_cases (.type name filePath) b
  · rw [h]
  · rw [h]
    obtain ⟨n, hn, -⟩ := (hg.find?_iff _ _ _).mp hfind
    exact .single (.amend id n hn (.filePath filePath))
  · rw [h]
    have hn : (insertNode b.graph (.type name filePath)).node? (b.graph.nodes.size + 1) =
        some ⟨b.graph.nodes.size + 1, .type name filePath⟩ := by
      rw [Graph.node?_insertNode, if_pos rfl]
    exact .tail (.single (.node _ hkey hnew trivial)) (.amend _ _ hn (.filePath filePath))

/-- A checked node is amended, or the check fails and nothing happens. -/
theorem expect_amend_edits (id : NodeId) (kind : NodeKind) (a : Amendment) (b : Builder) :
    Edits b.graph ((do
      expect id kind
      modify fun b =>
        { b with graph := update b.graph id a.apply } : Ingest Unit).run b).2.graph := by
  rw [run_bind]
  obtain ⟨e, h⟩ | ⟨n, hn, -, h⟩ := expect_cases id kind b
  · rw [h]
  · rw [h]
    exact .single (.amend id n hn a)

theorem addEdge_edits (label : EdgeLabel) (source target : NodeId) (line : Int)
    (createdAt : Option Timestamp) (confidence : Float) (b : Builder) :
    Edits b.graph ((addEdge label source target line createdAt confidence).run b).2.graph := by
  obtain ⟨e, h⟩ | ⟨kind, s, t, -, hs, ht, hjoin, ⟨-, h⟩ | ⟨hnew, h⟩⟩ :=
    addEdge_cases label source target line createdAt confidence b
  · rw [h]
  · rw [h]
  · rw [h]
    exact .single (.edge _ s t rfl hs ht hjoin hnew)

theorem clear_edits (b : Builder) : Edits b.graph (clear.run b).2.graph := by
  simp only [clear, ExceptT.run]
  split
  · exact .refl
  · exact .single .clear

/-- An operation, also one that fails, is a run of edits. -/
theorem perform_edits (op : Operation) {b : Builder} (hg : b.graph.WellFormed) :
    Edits b.graph (op.perform.run b).2.graph := by
  cases op with
  | fact f =>
      cases f <;> simp only [Operation.perform, ingest, run_map]
      case file name path => exact upsert_edits (.file name path) trivial b
      case type name filePath => exact upsertType_edits name filePath hg
      case field name => exact upsert_edits (.field name []) ⟨List.nodup_nil, List.not_mem_nil⟩ b
      case method signature => exact upsert_edits (.method signature "" []) trivial b
      case fieldType id text => exact expect_amend_edits id .field (.fieldType text) b
      case methodTypes id ret params =>
        exact expect_amend_edits id .method (.methodTypes ret params) b
      case link kind source target line => exact addEdge_edits _ _ _ _ _ _ b
      case edge label source target line createdAt confidence => exact addEdge_edits _ _ _ _ _ _ b
  | clear =>
      simp only [Operation.perform, run_map]
      exact clear_edits b
  | freeze => exact .refl
  | tick now => exact .refl

theorem after_edits (ops : List Operation) {b : Builder} (hg : b.graph.WellFormed) :
    Edits b.graph (after ops b).graph := by
  induction ops generalizing b with
  | nil => exact .refl
  | cons op ops ih =>
      have hop := perform_edits op hg
      exact hop.trans (ih (hg.edits hop))

end Builder

namespace Graph

/-- A graph that a builder holds after some operations. -/
def Built (g : Graph) : Prop :=
  ∃ now ops, g = (Builder.after ops (Builder.new now)).graph

theorem Built.wellFormed {g : Graph} (h : g.Built) : g.WellFormed := by
  obtain ⟨now, ops, rfl⟩ := h
  exact wellFormed_empty.edits (Builder.after_edits ops (b := Builder.new now) wellFormed_empty)

theorem Built.tidy {g : Graph} (h : g.Built) : ∀ n ∈ g.nodes, n.symbol.Tidy := by
  obtain ⟨now, ops, rfl⟩ := h
  exact Edits.tidy (fun n hn => absurd hn (Array.not_mem_empty n))
    (Builder.after_edits ops (b := Builder.new now) wellFormed_empty)

/-! ## consequences -/

/-- What is numbered in order has growing numbers. -/
theorem pairwise_of_numbered {α : Type} {xs : Array α} {id : α → Int}
    (h : ∀ i (hi : i < xs.size), id xs[i] = i + 1) :
    xs.toList.Pairwise (fun x y => id x < id y) := by
  rw [List.pairwise_iff_getElem]
  intro i j hi hj hij
  simp only [Array.getElem_toList]
  rw [h i hi, h j hj]
  exact Int.add_lt_add_right (Int.ofNat_lt.mpr hij) 1

namespace WellFormed

variable {g : Graph}

theorem node?_iff (hg : g.WellFormed) {id : NodeId} {n : Node} :
    g.node? id = some n ↔ n ∈ g.nodes ∧ n.id = id := by
  constructor
  · intro h
    obtain ⟨hpos, hlt⟩ := node?_bounds h
    rw [node?, if_pos hpos, Array.getElem?_eq_getElem hlt, Option.some.injEq] at h
    refine ⟨h ▸ Array.getElem_mem hlt, ?_⟩
    rw [← h, hg.node_id _ hlt]
    exact ((toNat_pred_eq_iff hpos _).mp rfl).symm
  · rintro ⟨hn, rfl⟩
    obtain ⟨i, hi, rfl⟩ := Array.mem_iff_getElem.mp hn
    have hid := hg.node_id i hi
    have hpos : (1 : Int) ≤ g.nodes[i].id := hid ▸ Int.le_add_of_nonneg_left (Int.natCast_nonneg _)
    rw [node?, if_pos hpos, (toNat_pred_eq_iff hpos i).mpr hid, Array.getElem?_eq_getElem hi]

/-- No two nodes of one kind share a key. -/
theorem eq_of_key_eq (hg : g.WellFormed) {m n : Node} (hm : m ∈ g.nodes) (hn : n ∈ g.nodes)
    (hkind : m.kind = n.kind) (hkey : m.key = n.key) : m = n := by
  have hfm := (hg.find?_iff n.kind n.key m.id).mpr ⟨m, hg.node?_iff.mpr ⟨hm, rfl⟩, hkind, hkey⟩
  have hfn := (hg.find?_iff n.kind n.key n.id).mpr ⟨n, hg.node?_iff.mpr ⟨hn, rfl⟩, rfl, rfl⟩
  have hid : m.id = n.id := Option.some.inj (hfm.symm.trans hfn)
  have hnode := hg.node?_iff.mpr ⟨hm, hid⟩
  rw [hg.node?_iff.mpr ⟨hn, rfl⟩] at hnode
  exact (Option.some.inj hnode).symm

/-- Numbers grow along the array of nodes. -/
theorem nodes_pairwise (hg : g.WellFormed) : g.nodes.toList.Pairwise (fun m n => m.id < n.id) :=
  pairwise_of_numbered hg.node_id

theorem edges_pairwise (hg : g.WellFormed) : g.edges.toList.Pairwise (fun d e => d.id < e.id) :=
  pairwise_of_numbered hg.edge_id

theorem methodsNamed_pairwise (hg : g.WellFormed) (name : String) :
    (g.methodsNamed name).Pairwise (· < ·) := by
  rw [hg.methodsNamed_eq, List.pairwise_map]
  exact (hg.nodes_pairwise.filter _).filter _

end WellFormed

end Graph

/-- A method is found by its signature and named by what stands before the parenthesis. -/
theorem Node.eq_method {n : Node} (h : n.kind = .method) :
    ∃ signature returnType parameterTypes, n.symbol = .method signature returnType parameterTypes ∧
      n.key = signature ∧ n.name = Signature.simpleName signature := by
  obtain ⟨id, symbol⟩ := n
  cases symbol with
  | method signature returnType parameterTypes =>
      exact ⟨signature, returnType, parameterTypes, rfl, rfl, rfl⟩
  | file _ _ | type _ _ | field _ _ => contradiction

/-- **Representation**: after any operations, in any order and with any arguments, failing ones
included, the graph is well formed; so no two nodes of one kind share a key, and the methods of a
name are listed in strictly increasing order.  Key, name and signature of a method are read off one
stored text, so the clause about them holds of any method, whatever was done. -/
theorem Builder.after_represents (now : Timestamp) (ops : List Operation) :
    let g := (Builder.after ops (Builder.new now)).graph
    g.WellFormed ∧
      (∀ m ∈ g.nodes, ∀ n ∈ g.nodes, m.kind = n.kind → m.key = n.key → m = n) ∧
      (∀ n ∈ g.nodes, n.kind = .method → ∃ signature returnType parameterTypes,
        n.symbol = .method signature returnType parameterTypes ∧ n.key = signature ∧
        n.name = Signature.simpleName signature) ∧
      ∀ name, (g.methodsNamed name).Pairwise (· < ·) := by
  have hg : (Builder.after ops (Builder.new now)).graph.WellFormed :=
    Graph.Built.wellFormed ⟨now, ops, rfl⟩
  exact ⟨hg, fun m hm n hn => hg.eq_of_key_eq hm hn, fun n _ => Node.eq_method,
    hg.methodsNamed_pairwise⟩

end Ripple
