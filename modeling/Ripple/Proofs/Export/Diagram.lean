import Mathlib.Data.String.Basic
import Mathlib.Data.Prod.Lex
import Ripple.Export.Diagram
import Ripple.Proofs.Arranged
import Ripple.Proofs.Graph.Lookup

/-!
# Ripple.Proofs.Export.Diagram

The arrows of the diagram are the calls between types.

`Graph.CallsInto` says when a type depends on another, in terms of edges only: a method that the one
declares calls a method that the other declares.  `mem_arrows` shows that the arrows are these pairs
of distinct names, and `arranged_arrows` that each stands once and in order; so two graphs with the
same types, declarations and calls have the same diagram (`Graph.SameCalls.diagram_eq`).

Most of what a builder is told concerns none of the three.  `Operation.Quiet` lists those
operations, `perform_sameCalls` is one of them and `after_sameCalls` any number.
-/

namespace Ripple

open Std
open Builder (insertNode insertEdge update)

/-- A method that the one type declares calls a method that the other declares. -/
def Graph.CallsInto (g : Graph) (source target : String) : Prop :=
  ∃ T U m n, g.find? .type source = some T ∧ g.find? .type target = some U ∧
    g.Linked .contains T m ∧ g.Linked .contains U n ∧ g.Linked .calls m n

/-- A type is found by its name. -/
theorem Node.key_eq_name {n : Node} (h : n.kind = .type) : n.key = n.name := by
  obtain ⟨id, symbol⟩ := n
  cases symbol with
  | type name filePath => rfl
  | file _ _ | field _ _ | method _ _ _ => contradiction

namespace Export

variable {g : Graph}

/-! ## which arrows there are -/

theorem mem_distinctArrows_go {seen : HashSet Arrow} {arrows : List Arrow} {a : Arrow} :
    a ∈ distinctArrows.go seen arrows ↔ a ∉ seen ∧ a ∈ arrows := by
  induction arrows generalizing seen with
  | nil => simp [distinctArrows.go]
  | cons b arrows ih =>
      rw [distinctArrows.go]
      by_cases hb : b ∈ seen
      · rw [if_pos (HashSet.mem_iff_contains.mp hb), ih]
        grind
      · rw [if_neg (fun h => hb (HashSet.mem_iff_contains.mpr h)), List.mem_cons, ih]
        simp only [HashSet.mem_insert, beq_iff_eq, List.mem_cons]
        grind

theorem nodup_distinctArrows_go (seen : HashSet Arrow) (arrows : List Arrow) :
    (distinctArrows.go seen arrows).Nodup := by
  induction arrows generalizing seen with
  | nil => exact List.nodup_nil
  | cons b arrows ih =>
      rw [distinctArrows.go]
      split
      · exact ih seen
      · refine List.nodup_cons.mpr ⟨?_, ih _⟩
        intro hmem
        exact (mem_distinctArrows_go.mp hmem).1 HashSet.mem_insert_self

/-- The types of a method, by name. -/
theorem mem_typeNames (hg : g.WellFormed) {m : NodeId} (hm : g.IsKind .method m) {name : String} :
    name ∈ typeNames g m ↔ ∃ T, g.find? .type name = some T ∧ g.Linked .contains T m := by
  simp only [typeNames, List.mem_filterMap, hg.mem_declaringTypes_method hm, hg.find?_iff]
  constructor
  · rintro ⟨T, hlink, hname⟩
    obtain ⟨n, hn, rfl⟩ := Option.map_eq_some_iff.mp hname
    obtain ⟨n', hn', hkind⟩ := hg.isKind_of_contains_method hlink hm
    obtain rfl := Option.some.inj (hn.symm.trans hn')
    exact ⟨T, ⟨n, hn, hkind, Node.key_eq_name hkind⟩, hlink⟩
  · rintro ⟨T, ⟨n, hn, hkind, rfl⟩, hlink⟩
    exact ⟨T, hlink, by rw [hn, Option.map_some, Node.key_eq_name hkind]⟩

/-- A call gives an arrow for every two types of its ends whose names differ. -/
theorem mem_arrowsOfCall {m n : NodeId} {a : Arrow} :
    a ∈ arrowsOfCall g m n ↔
      a.source ∈ typeNames g m ∧ a.target ∈ typeNames g n ∧ a.source ≠ a.target := by
  simp only [arrowsOfCall, List.mem_flatMap, List.mem_map, List.mem_filter, bne_iff_ne]
  constructor
  · rintro ⟨source, hsource, target, ⟨htarget, hne⟩, rfl⟩
    exact ⟨hsource, htarget, hne⟩
  · rintro ⟨hsource, htarget, hne⟩
    exact ⟨a.source, hsource, a.target, ⟨htarget, hne⟩, rfl⟩

theorem mem_arrows (hg : g.WellFormed) {a : Arrow} :
    a ∈ arrows g ↔ a.source ≠ a.target ∧ g.CallsInto a.source a.target := by
  simp only [arrows, distinctArrows, List.mem_mergeSort, mem_distinctArrows_go, List.mem_flatMap,
    List.mem_filter, Array.mem_toList_iff, beq_iff_eq, mem_arrowsOfCall, HashSet.not_mem_empty,
    not_false_eq_true, true_and]
  constructor
  · rintro ⟨e, ⟨he, hcalls⟩, hsource, htarget, hne⟩
    have hlink : g.Linked .calls e.source e.target := ⟨e.line, hcalls ▸ Graph.linkedAt_of_mem he⟩
    obtain ⟨hm, hn⟩ := hg.isKind_of_calls hlink
    obtain ⟨T, hT, hTm⟩ := (mem_typeNames hg hm).mp hsource
    obtain ⟨U, hU, hUn⟩ := (mem_typeNames hg hn).mp htarget
    exact ⟨hne, T, U, e.source, e.target, hT, hU, hTm, hUn, hlink⟩
  · rintro ⟨hne, T, U, m, n, hT, hU, hTm, hUn, hlink⟩
    obtain ⟨hm, hn⟩ := hg.isKind_of_calls hlink
    obtain ⟨line, e, he, hcalls, rfl, rfl, -⟩ := hlink
    exact ⟨e, ⟨he, hcalls⟩, (mem_typeNames hg hm).mpr ⟨T, hT, hTm⟩,
      (mem_typeNames hg hn).mpr ⟨U, hU, hUn⟩, hne⟩

theorem mem_typeList (hg : g.WellFormed) {name : String} :
    name ∈ typeList g ↔ ∃ T, g.find? .type name = some T := by
  simp only [typeList, List.mem_mergeSort, List.mem_map, Graph.nodesOfKind, List.mem_filter,
    Array.mem_toList_iff, beq_iff_eq, hg.find?_iff]
  constructor
  · rintro ⟨n, ⟨hn, hkind⟩, rfl⟩
    exact ⟨n.id, n, hg.node?_iff.mpr ⟨hn, rfl⟩, hkind, Node.key_eq_name hkind⟩
  · rintro ⟨T, n, hn, hkind, rfl⟩
    exact ⟨n, ⟨(hg.node?_iff.mp hn).1, hkind⟩, (Node.key_eq_name hkind).symm⟩

/-! ## their order -/

/-- The order of arrows as that of pairs. -/
def Arrow.key (a : Arrow) : String ×ₗ String := toLex (a.source, a.target)

theorem Arrow.le_iff {a b : Arrow} : a.le b = true ↔ a.key ≤ b.key := by
  simp [le, key, Prod.Lex.toLex_le_toLex]

theorem Arrow.key_injective : Function.Injective Arrow.key := by
  rintro ⟨s, t⟩ ⟨s', t'⟩ h
  obtain ⟨rfl, rfl⟩ := Prod.mk.inj (toLex.injective h)
  rfl

theorem arranged_arrows (g : Graph) : Arranged Arrow.key (arrows g) :=
  Arranged.mergeSort (fun _ _ => Arrow.le_iff)
    ((nodup_distinctArrows_go ∅ _).map Arrow.key_injective)

end Export

/-! ## graphs with the same diagram -/

namespace Graph

/-- Two graphs with the same types, the same declarations of methods and the same calls, whatever
their lines and numbers. -/
structure SameCalls (g g' : Graph) : Prop where
  names : (g.nodesOfKind .type).map Node.name = (g'.nodesOfKind .type).map Node.name
  find? : ∀ name, g.find? .type name = g'.find? .type name
  contains : ∀ T m, g.Linked .contains T m ↔ g'.Linked .contains T m
  calls : ∀ m n, g.Linked .calls m n ↔ g'.Linked .calls m n

namespace SameCalls

variable {g g' g'' : Graph}

theorem refl (g : Graph) : SameCalls g g where
  names := rfl
  find? _ := rfl
  contains _ _ := Iff.rfl
  calls _ _ := Iff.rfl

theorem trans (h : SameCalls g g') (h' : SameCalls g' g'') : SameCalls g g'' where
  names := h.names.trans h'.names
  find? name := (h.find? name).trans (h'.find? name)
  contains T m := (h.contains T m).trans (h'.contains T m)
  calls m n := (h.calls m n).trans (h'.calls m n)

theorem callsInto_iff (h : SameCalls g g') {source target : String} :
    g.CallsInto source target ↔ g'.CallsInto source target := by
  simp only [CallsInto, h.find?, h.contains, h.calls]

/-- **The diagram shows types, declarations and calls, and nothing else.** -/
theorem diagram_eq (h : SameCalls g g') (hg : g.WellFormed) (hg' : g'.WellFormed) :
    Export.diagram g = Export.diagram g' := by
  have hnames : Export.typeList g = Export.typeList g' :=
    congrArg (List.mergeSort · _) h.names
  have harrows : Export.arrows g = Export.arrows g' := by
    refine (Export.arranged_arrows g).ext (Export.arranged_arrows g') ?_ ?_
    · intro a ha
      rwa [Export.mem_arrows hg', ← h.callsInto_iff, ← Export.mem_arrows hg]
    · intro a ha
      rwa [Export.mem_arrows hg, h.callsInto_iff, ← Export.mem_arrows hg']
  unfold Export.diagram
  rw [hnames, harrows]

/-! ## edits that change none of the three -/

/-- A node that is no type. -/
theorem insertNode (g : Graph) {s : Symbol} (hs : s.kind ≠ .type) :
    SameCalls g (insertNode g s) where
  names := by simp [nodesOfKind, Builder.insertNode, Node.kind, hs]
  find? name := by rw [find?_insertNode, if_neg (fun h => hs h.1)]
  contains _ _ := Iff.rfl
  calls _ _ := Iff.rfl

theorem amend (g : Graph) (id : NodeId) (a : Amendment) : SameCalls g (update g id a.apply) where
  names := by
    simp only [nodesOfKind, update, Array.toList_modify]
    refine (filter_map_modify (f := a.node) ?_ a.node_name _ _).symm
    intro n
    rw [a.node_kind]
  find? _ := rfl
  contains _ _ := Iff.rfl
  calls _ _ := Iff.rfl

theorem linked_insertEdge (g : Graph) (e : Edge) (kind : EdgeKind) (s t : NodeId) :
    (insertEdge g e).Linked kind s t ↔
      g.Linked kind s t ∨ e.kind = kind ∧ e.source = s ∧ e.target = t := by
  simp only [Linked, LinkedAt, edges_insertEdge, Array.mem_push]
  constructor
  · rintro ⟨line, d, hd | rfl, hkind, hsource, htarget, hline⟩
    · exact .inl ⟨line, d, hd, hkind, hsource, htarget, hline⟩
    · exact .inr ⟨hkind, hsource, htarget⟩
  · rintro (⟨line, d, hd, hlink⟩ | ⟨hkind, hsource, htarget⟩)
    · exact ⟨line, d, .inl hd, hlink⟩
    · exact ⟨e.line, e, .inr rfl, hkind, hsource, htarget, rfl⟩

/-- An edge that declares no method and is no new call. -/
theorem insertEdge (g : Graph) {e : Edge} (hcontains : e.kind ≠ .contains)
    (hcalls : e.kind = .calls → g.Linked .calls e.source e.target) :
    SameCalls g (insertEdge g e) where
  names := rfl
  find? _ := rfl
  contains T m := by
    rw [linked_insertEdge]
    exact (or_iff_left fun h => hcontains h.1).symm
  calls m n := by
    rw [linked_insertEdge]
    refine (or_iff_left_of_imp ?_).symm
    rintro ⟨hkind, rfl, rfl⟩
    exact hcalls hkind

end SameCalls

end Graph

/-! ## operations that change none of the three -/

/-- An edge of a kind neither declares a method nor calls one that was not called before. -/
def Graph.QuietEdge (g : Graph) (kind : EdgeKind) (source target : NodeId) : Prop :=
  kind ≠ .contains ∧ (kind = .calls → g.Linked .calls source target)

/-- An operation that adds no type, declares no method and records no new call: it may add accesses
and fields, repeat calls at other lines, and add nodes that are no types. -/
def Operation.Quiet (g : Graph) : Operation → Prop
  | .fact (.link kind source target _) => g.QuietEdge kind source target
  | .fact (.edge (.kind kind) source target _ _ _) => g.QuietEdge kind source target
  | .fact (.type _ _) | .clear => False
  | _ => True

theorem Operation.Quiet.mono {g g' : Graph} (h : g.SameCalls g') {op : Operation}
    (hop : op.Quiet g) : op.Quiet g' := by
  have hedge : ∀ {kind source target}, g.QuietEdge kind source target →
      g'.QuietEdge kind source target :=
    fun hq => ⟨hq.1, fun hkind => (h.calls _ _).mp (hq.2 hkind)⟩
  match op with
  | .fact (.link ..) => exact hedge hop
  | .fact (.edge (.kind _) ..) => exact hedge hop
  | .fact (.edge (.other _) ..) => trivial
  | .fact (.type _ _) | .clear => exact hop
  | .fact (.file ..) | .fact (.field _) | .fact (.method _) | .fact (.fieldType ..)
  | .fact (.methodTypes ..) | .freeze | .tick _ => trivial

namespace Builder

open Ripple.Graph (SameCalls Amendment)

theorem upsert_sameCalls {s : Symbol} (hs : s.kind ≠ .type) (b : Builder) :
    b.graph.SameCalls ((upsert s).run b).2.graph := by
  obtain ⟨e, h⟩ | ⟨id, -, h⟩ | ⟨-, -, h⟩ := upsert_cases s b
  · rw [h]
    exact .refl b.graph
  · rw [h]
    exact .refl b.graph
  · rw [h]
    exact .insertNode b.graph hs

theorem expect_amend_sameCalls (id : NodeId) (kind : NodeKind) (a : Amendment) (b : Builder) :
    b.graph.SameCalls ((do
      expect id kind
      modify fun b =>
        { b with graph := update b.graph id a.apply } : Ingest Unit).run b).2.graph := by
  rw [run_bind]
  obtain ⟨e, h⟩ | ⟨n, -, -, h⟩ := expect_cases id kind b
  · rw [h]
    exact .refl b.graph
  · rw [h]
    exact .amend b.graph id a

theorem addEdge_sameCalls {label : EdgeLabel} {source target : NodeId} (line : Int)
    (createdAt : Option Timestamp) (confidence : Float) {b : Builder}
    (hquiet : ∀ kind, label = .kind kind → b.graph.QuietEdge kind source target) :
    b.graph.SameCalls ((addEdge label source target line createdAt confidence).run b).2.graph := by
  obtain ⟨e, h⟩ | ⟨kind, s, t, hlabel, -, -, -, ⟨-, h⟩ | ⟨-, h⟩⟩ :=
    addEdge_cases label source target line createdAt confidence b
  · rw [h]
    exact .refl b.graph
  · rw [h]
    exact .refl b.graph
  · rw [h]
    obtain ⟨hcontains, hcalls⟩ := hquiet kind hlabel
    exact .insertEdge b.graph hcontains hcalls

/-- **One operation.** -/
theorem perform_sameCalls {op : Operation} {b : Builder} (hop : op.Quiet b.graph) :
    b.graph.SameCalls (op.perform.run b).2.graph := by
  cases op with
  | fact f =>
      cases f <;> simp only [Operation.perform, ingest, run_map]
      case file name path => exact upsert_sameCalls (s := .file name path) (by simp [Symbol.kind]) b
      case type name filePath => exact absurd hop id
      case field name => exact upsert_sameCalls (s := .field name []) (by simp [Symbol.kind]) b
      case method signature =>
        exact upsert_sameCalls (s := .method signature "" []) (by simp [Symbol.kind]) b
      case fieldType id text => exact expect_amend_sameCalls id .field (.fieldType text) b
      case methodTypes id ret params =>
        exact expect_amend_sameCalls id .method (.methodTypes ret params) b
      case link kind source target line =>
        exact addEdge_sameCalls line none certain fun _ hkind => EdgeLabel.kind.inj hkind ▸ hop
      case edge label source target line createdAt confidence =>
        refine addEdge_sameCalls line createdAt confidence ?_
        rintro kind rfl
        exact hop
  | clear => exact absurd hop id
  | freeze => exact .refl b.graph
  | tick now => exact .refl b.graph

/-- **Any number of operations.** -/
theorem after_sameCalls {ops : List Operation} {b : Builder} (hops : ∀ op ∈ ops, op.Quiet b.graph) :
    b.graph.SameCalls (after ops b).graph := by
  induction ops generalizing b with
  | nil => exact .refl b.graph
  | cons op ops ih =>
      obtain ⟨hop, hops⟩ := List.forall_mem_cons.mp hops
      have hstep := perform_sameCalls hop
      exact hstep.trans (ih fun op' hmem => (hops op' hmem).mono hstep)

end Builder

/-- **Type dependencies**: the arrows of the diagram are the pairs of distinct names of types of
which the first declares a method that calls a method that the second declares, each once and in
strictly increasing order, and both ends are among the types that the diagram lists; further
operations that add no type, declare no method and record no new call leave the diagram as it is. -/
theorem Export.diagram_exact (now : Timestamp) (ops more : List Operation)
    (hmore : ∀ op ∈ more, op.Quiet (Builder.after ops (Builder.new now)).graph) :
    let g := (Builder.after ops (Builder.new now)).graph
    (∀ a, a ∈ arrows g ↔ a.source ≠ a.target ∧ g.CallsInto a.source a.target) ∧
      Arranged Arrow.key (arrows g) ∧
      (∀ a ∈ arrows g, a.source ∈ typeList g ∧ a.target ∈ typeList g) ∧
      diagram (Builder.after (ops ++ more) (Builder.new now)).graph = diagram g := by
  intro g
  have hg : g.WellFormed := Graph.Built.wellFormed ⟨now, ops, rfl⟩
  have hg' : (Builder.after (ops ++ more) (Builder.new now)).graph.WellFormed :=
    Graph.Built.wellFormed ⟨now, ops ++ more, rfl⟩
  refine ⟨fun a => mem_arrows hg, arranged_arrows g, ?_, ?_⟩
  · intro a ha
    obtain ⟨-, T, U, -, -, hT, hU, -⟩ := (mem_arrows hg).mp ha
    exact ⟨(mem_typeList hg).mpr ⟨T, hT⟩, (mem_typeList hg).mpr ⟨U, hU⟩⟩
  · have hafter : Builder.after (ops ++ more) (Builder.new now) =
        Builder.after more (Builder.after ops (Builder.new now)) := List.foldl_append
    exact ((hafter ▸ Builder.after_sameCalls hmore : g.SameCalls _).diagram_eq hg hg').symm

/-- Two types share a method that calls a method, which two types share as well. -/
def sharedFacts : List Operation :=
  [.fact (.type "B" ""), .fact (.type "A" ""), .fact (.type "C" ""), .fact (.method "m()"),
    .fact (.method "n()"), .fact (.link .contains 1 4 1), .fact (.link .contains 2 4 1),
    .fact (.link .contains 2 5 2), .fact (.link .contains 3 5 1), .fact (.link .calls 4 5 3)]

/-- The graph of these facts. -/
def sharedGraph : Graph := (Builder.after sharedFacts (Builder.new 0)).graph

/-- The call at another line and with less confidence, a field and a read of it. -/
def repeatedFacts : List Operation :=
  [.fact (.edge (.kind .calls) 4 5 8 none 0.5), .fact (.field "x"), .fact (.link .hasField 2 6 4),
    .fact (.link .reads 4 6 3)]

section
open Builder

theorem sharedGraph_eq : sharedGraph =
    [EdgeKey.mk .contains 1 4 1, ⟨.contains, 2, 4, 1⟩, ⟨.contains, 2, 5, 2⟩, ⟨.contains, 3, 5, 1⟩,
      ⟨.calls, 4, 5, 3⟩].foldl
      (fun g k => insertEdge g ⟨g.edges.size + 1, k.kind, k.source, k.target, k.line, 0, certain⟩)
      ([Symbol.method "m()" "" [], .method "n()" "" []].foldl insertNode
        (update (insertNode (update (insertNode (update (insertNode Graph.empty (.type "B" "")) 1
          (withFilePath "")) (.type "A" "")) 2 (withFilePath "")) (.type "C" "")) 3
          (withFilePath ""))) := by
  simp [sharedGraph, sharedFacts, after, Operation.perform, ingest, run_map, upsertType,
    upsertMethod, run_bind, run_modify, upsert_run_of_new, link_run, Builder.new,
    Graph.node?_insertNode, Graph.find?_insertNode, Graph.node?_update, Text.isBlank, Symbol.key,
    Symbol.kind, Text.isBlankChar, Node.kind, EdgeKind.joins, withFilePath, Edge.key]

end

/-- The call gives an arrow for every two of the types but from `A` to itself, and the repeated
facts add none. -/
theorem Export.sharedGraph_diagram :
    (∀ op ∈ repeatedFacts, op.Quiet sharedGraph) ∧ ⟨"B", "C"⟩ ∈ arrows sharedGraph ∧
      ⟨"B", "A"⟩ ∈ arrows sharedGraph ∧ ⟨"A", "A"⟩ ∉ arrows sharedGraph ∧
      diagram (Builder.after (sharedFacts ++ repeatedFacts) (Builder.new 0)).graph =
        diagram sharedGraph := by
  have hedges : sharedGraph.edges.toList.map Edge.key = [⟨.contains, 1, 4, 1⟩,
      ⟨.contains, 2, 4, 1⟩, ⟨.contains, 2, 5, 2⟩, ⟨.contains, 3, 5, 1⟩, ⟨.calls, 4, 5, 3⟩] := by
    simp [sharedGraph_eq, Edge.key]
  have hlinked : ∀ k ∈ sharedGraph.edges.toList.map Edge.key,
      sharedGraph.Linked k.kind k.source k.target :=
    fun k hk => ⟨k.line, Graph.linkedAt_iff_key.mpr hk⟩
  simp only [hedges, List.forall_mem_cons] at hlinked
  obtain ⟨hB, -, hA, hC, hcalls, -⟩ := hlinked
  have hquiet : ∀ op ∈ repeatedFacts, op.Quiet sharedGraph := by
    simp [repeatedFacts, Operation.Quiet, Graph.QuietEdge, hcalls]
  have hfind : sharedGraph.find? .type "A" = some 2 ∧ sharedGraph.find? .type "B" = some 1 ∧
      sharedGraph.find? .type "C" = some 3 := by
    simp [sharedGraph_eq, Graph.find?_insertNode, Symbol.key, Symbol.kind]
  obtain ⟨hfindA, hfindB, hfindC⟩ := hfind
  obtain ⟨hmem, -, -, hsame⟩ := diagram_exact 0 sharedFacts repeatedFacts hquiet
  refine ⟨hquiet, (hmem _).mpr ⟨by decide, 1, 3, 4, 5, hfindB, hfindC, hB, hC, hcalls⟩,
    (hmem _).mpr ⟨by decide, 1, 2, 4, 5, hfindB, hfindA, hB, hA, hcalls⟩,
    fun h => ((hmem _).mp h).1 rfl, hsame⟩

end Ripple
