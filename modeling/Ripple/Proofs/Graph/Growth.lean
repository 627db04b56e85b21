import Ripple.Proofs.Graph.Invariant

/-!
# Ripple.Proofs.Graph.Growth

A graph only grows, as long as it is not cleared.

`Graph.Extends` says how: nodes keep their numbers and what is known about them (`Symbol.Grows`),
and edges are only appended.  Of the edits of a graph, all but clearing extend it, so an operation
other than clearing does (`perform_extends`), and so does any number of them (`after_extends`).
-/

namespace Ripple

open Builder (insertNode insertEdge update)

/-! ## what is known about an element -/

/-- A code element is the same, and what was known about it still is: paths and types may be filled
in where they were empty, and a field may have more types. -/
inductive Symbol.Grows : Symbol → Symbol → Prop where
  | file (name path : String) : Grows (.file name path) (.file name path)
  | type (name : String) {filePath filePath' : String}
    (hpath : filePath = "" ∨ filePath' = filePath) :
    Grows (.type name filePath) (.type name filePath')
  | field (name : String) {types types' : List String} (htypes : types ⊆ types') :
    Grows (.field name types) (.field name types')
  | method (signature : String) {ret ret' : String} {params params' : List String}
    (hret : ret = "" ∨ ret' = ret) (hparams : params = [] ∨ params' = params) :
    Grows (.method signature ret params) (.method signature ret' params')

namespace Symbol.Grows

theorem refl (s : Symbol) : s.Grows s := by
  cases s with
  | file name path => exact .file name path
  | type name filePath => exact .type name (.inr rfl)
  | field name types => exact .field name (List.Subset.refl types)
  | method signature ret params => exact .method signature (.inr rfl) (.inr rfl)

/-- What is empty can be filled in once. -/
theorem filled_trans {α : Type} {empty a b c : α} (h : a = empty ∨ b = a) (h' : b = empty ∨ c = b) :
    a = empty ∨ c = a := by
  grind

theorem trans {s t u : Symbol} (h : s.Grows t) (h' : t.Grows u) : s.Grows u := by
  cases h with
  | file name path => exact h'
  | type name hpath =>
      cases h' with
      | type _ hpath' => exact .type name (filled_trans hpath hpath')
  | field name htypes =>
      cases h' with
      | field _ htypes' => exact .field name (List.Subset.trans htypes htypes')
  | method signature hret hparams =>
      cases h' with
      | method _ hret' hparams' =>
          exact .method signature (filled_trans hret hret') (filled_trans hparams hparams')

theorem kind_eq {s t : Symbol} (h : s.Grows t) : t.kind = s.kind := by cases h <;> rfl

theorem key_eq {s t : Symbol} (h : s.Grows t) : t.key = s.key := by cases h <;> rfl

theorem name_eq {s t : Symbol} (h : s.Grows t) : t.name = s.name := by cases h <;> rfl

end Symbol.Grows

namespace Graph

/-- An amendment fills in what was missing. -/
theorem Amendment.grows (a : Amendment) (s : Symbol) : s.Grows (a.apply s) := by
  cases a with
  | filePath path =>
      simp only [apply, Builder.withFilePath]
      split
      · next name => exact .type name (.inl rfl)
      · exact .refl s
  | fieldType text =>
      simp only [apply, Builder.withFieldType]
      split
      · next name types =>
          split
          · exact .refl _
          · exact .field name (List.subset_append_left types [text])
      · exact .refl s
  | methodTypes returnType parameterTypes =>
      simp only [apply, Builder.withMethodTypes]
      split
      · next signature ret params =>
          refine .method signature ?_ ?_
          · exact (Decidable.em (ret = "")).imp_right fun hret => if_neg hret
          · exact (Decidable.em (params = [])).imp_right fun hparams => if_neg hparams
      · exact .refl s

/-! ## extensions -/

/-- Nodes stay what they are, and the edges stand before all later ones. -/
structure Extends (g g' : Graph) : Prop where
  node : ∀ id n, g.node? id = some n → ∃ n', g'.node? id = some n' ∧ n.symbol.Grows n'.symbol
  edges : g.edges.toList <+: g'.edges.toList

namespace Extends

theorem refl (g : Graph) : Extends g g where
  node _ n hn := ⟨n, hn, .refl _⟩
  edges := List.prefix_rfl

theorem trans {g g' g'' : Graph} (h : Extends g g') (h' : Extends g' g'') : Extends g g'' where
  node id n hn := by
    obtain ⟨n', hn', hgrows⟩ := h.node id n hn
    obtain ⟨n'', hn'', hgrows'⟩ := h'.node id n' hn'
    exact ⟨n'', hn'', hgrows.trans hgrows'⟩
  edges := h.edges.trans h'.edges

theorem insertNode (g : Graph) (s : Symbol) : Extends g (insertNode g s) where
  node _ n hn := ⟨n, node?_insertNode_of_some s hn, .refl _⟩
  edges := List.prefix_rfl

theorem amend (g : Graph) (id : NodeId) (a : Amendment) : Extends g (update g id a.apply) where
  node id' n hn := by
    rw [node?_amend, hn]
    refine ⟨_, rfl, ?_⟩
    split
    · exact a.grows n.symbol
    · exact .refl n.symbol
  edges := List.prefix_rfl

theorem insertEdge (g : Graph) (e : Edge) : Extends g (insertEdge g e) where
  node _ n hn := ⟨n, hn, .refl _⟩
  edges := by
    rw [edges_insertEdge, Array.toList_push]
    exact List.prefix_append _ _

end Extends

end Graph

/-! ## operations -/

namespace Builder

open Ripple.Graph (Extends Amendment)

theorem upsert_extends (s : Symbol) (b : Builder) :
    b.graph.Extends ((upsert s).run b).2.graph := by
  obtain ⟨e, h⟩ | ⟨id, -, h⟩ | ⟨-, -, h⟩ := upsert_cases s b
  · rw [h]
    exact .refl b.graph
  · rw [h]
    exact .refl b.graph
  · rw [h]
    exact .insertNode b.graph s

theorem upsertType_extends (name filePath : String) (b : Builder) :
    b.graph.Extends ((upsertType name filePath).run b).2.graph := by
  unfold upsertType
  rw [run_bind]
  obtain ⟨e, h⟩ | ⟨id, -, h⟩ | ⟨-, -, h⟩ := upsert_cases (.type name filePath) b
  · rw [h]
    exact .refl b.graph
  · rw [h]
    exact .amend b.graph id (.filePath filePath)
  · rw [h]
    exact (Extends.insertNode b.graph _).trans (.amend _ _ (.filePath filePath))

theorem expect_amend_extends (id : NodeId) (kind : NodeKind) (a : Amendment) (b : Builder) :
    b.graph.Extends ((do
      expect id kind
      modify fun b =>
        { b with graph := update b.graph id a.apply } : Ingest Unit).run b).2.graph := by
  rw [run_bind]
  obtain ⟨e, h⟩ | ⟨n, -, -, h⟩ := expect_cases id kind b
  · rw [h]
    exact .refl b.graph
  · rw [h]
    exact .amend b.graph id a

theorem addEdge_extends (label : EdgeLabel) (source target : NodeId) (line : Int)
    (createdAt : Option Timestamp) (confidence : Float) (b : Builder) :
    b.graph.Extends ((addEdge label source target line createdAt confidence).run b).2.graph := by
  obtain ⟨e, h⟩ | ⟨kind, s, t, -, -, -, -, ⟨-, h⟩ | ⟨-, h⟩⟩ :=
    addEdge_cases label source target line createdAt confidence b
  · rw [h]
    exact .refl b.graph
  · rw [h]
    exact .refl b.graph
  · rw [h]
    exact .insertEdge b.graph _

/-- **One operation**: whatever it is, if it is not clearing it extends the graph. -/
theorem perform_extends {op : Operation} (hop : op ≠ .clear) (b : Builder) :
    b.graph.Extends (op.perform.run b).2.graph := by
  cases op with
  | fact f =>
      cases f <;> simp only [Operation.perform, ingest, run_map]
      case file name path => exact upsert_extends (.file name path) b
      case type name filePath => exact upsertType_extends name filePath b
      case field name => exact upsert_extends (.field name []) b
      case method signature => exact upsert_extends (.method signature "" []) b
      case fieldType id text => exact expect_amend_extends id .field (.fieldType text) b
      case methodTypes id ret params =>
        exact expect_amend_extends id .method (.methodTypes ret params) b
      case link kind source target line => exact addEdge_extends _ _ _ _ _ _ b
      case edge label source target line createdAt confidence => exact addEdge_extends _ _ _ _ _ _ b
  | clear => contradiction
  | freeze => exact .refl b.graph
  | tick now => exact .refl b.graph

/-- **Any number of operations.** -/
theorem after_extends {ops : List Operation} (hops : ∀ op ∈ ops, op ≠ .clear) (b : Builder) :
    b.graph.Extends (after ops b).graph := by
  induction ops generalizing b with
  | nil => exact .refl b.graph
  | cons op ops ih =>
      obtain ⟨hop, hops⟩ := List.forall_mem_cons.mp hops
      exact (perform_extends hop b).trans (ih hops _)

end Builder

end Ripple
