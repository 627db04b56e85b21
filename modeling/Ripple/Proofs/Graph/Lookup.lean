import Ripple.Proofs.Graph.Invariant

/-!
# Ripple.Proofs.Graph.Lookup

What the lookups of a well-formed graph answer, said in terms of its edges.

`LinkedAt` and `Linked` are the edges as a relation between nodes, with and without the line.  Each
query of the graph is characterised by them once (`mem_outgoing`, `mem_predecessors`,
`mem_declaringTypes`, …), so that proofs about reports never open an index again.
-/

namespace Ripple

/-! ## sets of nodes -/

namespace NodeId

theorem mem_dropRepeats {l : List NodeId} {x : NodeId} : x ∈ dropRepeats l ↔ x ∈ l := by
  fun_induction dropRepeats l with
  | case1 a b rest heq ih =>
      rw [ih, beq_iff_eq.mp heq]
      simp
  | case2 a b rest hne ih => rw [List.mem_cons, ih, ← List.mem_cons]
  | case3 l => rfl

/-- Of a sorted list, the first elements of its runs are strictly sorted. -/
theorem pairwise_dropRepeats {l : List NodeId} (h : l.Pairwise (· ≤ ·)) :
    (dropRepeats l).Pairwise (· < ·) := by
  fun_induction dropRepeats l with
  | case1 a b rest heq ih => exact ih (List.pairwise_cons.mp h).2
  | case2 a b rest hne ih =>
      obtain ⟨hhead, htail⟩ := List.pairwise_cons.mp h
      refine List.pairwise_cons.mpr ⟨?_, ih htail⟩
      intro x hx
      have hab : a < b := by
        have hle := hhead b List.mem_cons_self
        have hne' : a ≠ b := fun heq => hne (beq_iff_eq.mpr heq)
        exact Int.lt_iff_le_and_ne.mpr ⟨hle, hne'⟩
      have hbx : b ≤ x := by
        cases List.mem_cons.mp (mem_dropRepeats.mp hx) with
        | inl heq => exact Int.le_of_eq heq.symm
        | inr hmem => exact (List.pairwise_cons.mp htail).1 x hmem
      exact Int.lt_of_lt_of_le hab hbx
  | case3 l hshort =>
      match l, hshort with
      | [], _ => exact .nil
      | [a], _ => exact List.pairwise_singleton _ a
      | a :: b :: rest, hshort => exact absurd rfl (hshort a b rest)

@[simp] theorem mem_setOf {ids : List NodeId} {x : NodeId} : x ∈ setOf ids ↔ x ∈ ids := by
  rw [setOf, mem_dropRepeats, List.mem_mergeSort]

theorem pairwise_setOf (ids : List NodeId) : (setOf ids).Pairwise (· < ·) := by
  apply pairwise_dropRepeats
  have hsorted : (ids.mergeSort fun a b => decide (a ≤ b)).Pairwise
      (fun a b => decide (a ≤ b) = true) := by
    apply List.pairwise_mergeSort
    · intro a b c hab hbc
      exact decide_eq_true (Int.le_trans (of_decide_eq_true hab) (of_decide_eq_true hbc))
    · intro a b
      simpa using Int.le_total a b
  exact hsorted.imp (fun h => of_decide_eq_true h)

theorem nodup_setOf (ids : List NodeId) : (setOf ids).Nodup :=
  (pairwise_setOf ids).imp (fun h => Int.ne_of_lt h)

end NodeId

namespace Graph

/-! ## edges as a relation -/

/-- An edge of a kind leads from one node to another at a line. -/
def LinkedAt (g : Graph) (kind : EdgeKind) (source target : NodeId) (line : Int) : Prop :=
  ∃ e ∈ g.edges, e.kind = kind ∧ e.source = source ∧ e.target = target ∧ e.line = line

/-- An edge of a kind leads from one node to another. -/
def Linked (g : Graph) (kind : EdgeKind) (source target : NodeId) : Prop :=
  ∃ line, g.LinkedAt kind source target line

/-- A number stands for a node of a kind. -/
def IsKind (g : Graph) (kind : NodeKind) (id : NodeId) : Prop :=
  ∃ n, g.node? id = some n ∧ n.kind = kind

theorem IsKind.unique {g : Graph} {k k' : NodeKind} {id : NodeId} (h : g.IsKind k id)
    (h' : g.IsKind k' id) : k = k' := by
  obtain ⟨n, hn, rfl⟩ := h
  obtain ⟨n', hn', rfl⟩ := h'
  rw [hn, Option.some.injEq] at hn'
  rw [hn']

/-- An edge with the four things that tell it from others. -/
theorem linkedAt_of_mem {g : Graph} {e : Edge} (he : e ∈ g.edges) :
    g.LinkedAt e.kind e.source e.target e.line :=
  ⟨e, he, rfl, rfl, rfl, rfl⟩

theorem linkedAt_iff_key {g : Graph} {kind : EdgeKind} {a b : NodeId} {line : Int} :
    g.LinkedAt kind a b line ↔ ⟨kind, a, b, line⟩ ∈ g.edges.toList.map Edge.key := by
  simp [LinkedAt, Edge.key]

namespace WellFormed

variable {g : Graph}

theorem mem_outgoing (hg : g.WellFormed) {id : NodeId} {kind : EdgeKind} {e : Edge} :
    e ∈ g.outgoing id kind ↔ e ∈ g.edges ∧ e.kind = kind ∧ e.source = id := by
  rw [hg.outgoing_eq, List.mem_filter, Array.mem_toList_iff, decide_eq_true_eq]

theorem mem_incoming (hg : g.WellFormed) {id : NodeId} {kind : EdgeKind} {e : Edge} :
    e ∈ g.incoming id kind ↔ e ∈ g.edges ∧ e.kind = kind ∧ e.target = id := by
  rw [hg.incoming_eq, List.mem_filter, Array.mem_toList_iff, decide_eq_true_eq]

/-- Some edge out of a node has a target and a line. -/
theorem exists_mem_outgoing (hg : g.WellFormed) {id target : NodeId} {kind : EdgeKind}
    {line : Int} :
    (∃ e ∈ g.outgoing id kind, e.target = target ∧ e.line = line) ↔
      g.LinkedAt kind id target line := by
  simp only [hg.mem_outgoing, LinkedAt, and_assoc]

theorem mem_successors (hg : g.WellFormed) {id x : NodeId} {kind : EdgeKind} :
    x ∈ g.successors id kind ↔ g.Linked kind id x := by
  rw [successors, NodeId.mem_setOf, List.mem_map]
  constructor
  · rintro ⟨e, he, rfl⟩
    obtain ⟨hmem, rfl, rfl⟩ := hg.mem_outgoing.mp he
    exact ⟨e.line, linkedAt_of_mem hmem⟩
  · rintro ⟨line, e, he, hkind, hsource, htarget, -⟩
    exact ⟨e, hg.mem_outgoing.mpr ⟨he, hkind, hsource⟩, htarget⟩

theorem mem_predecessors (hg : g.WellFormed) {id x : NodeId} {kind : EdgeKind} :
    x ∈ g.predecessors id kind ↔ g.Linked kind x id := by
  rw [predecessors, NodeId.mem_setOf, List.mem_map]
  constructor
  · rintro ⟨e, he, rfl⟩
    obtain ⟨hmem, rfl, rfl⟩ := hg.mem_incoming.mp he
    exact ⟨e.line, linkedAt_of_mem hmem⟩
  · rintro ⟨line, e, he, hkind, hsource, htarget, -⟩
    exact ⟨e, hg.mem_incoming.mpr ⟨he, hkind, htarget⟩, hsource⟩

/-! ## the kinds of the ends of an edge -/

/-- The ends of an edge are nodes that its kind may join. -/
theorem linked_joins (hg : g.WellFormed) {kind : EdgeKind} {a b : NodeId} (h : g.Linked kind a b) :
    ∃ ka kb, g.IsKind ka a ∧ g.IsKind kb b ∧ kind.joins ka kb = true := by
  obtain ⟨line, e, he, rfl, rfl, rfl, -⟩ := h
  obtain ⟨s, t, hs, ht, hjoin⟩ := hg.joins e he
  exact ⟨s.kind, t.kind, ⟨s, hs, rfl⟩, ⟨t, ht, rfl⟩, hjoin⟩

theorem isKind_of_calls (hg : g.WellFormed) {a b : NodeId} (h : g.Linked .calls a b) :
    g.IsKind .method a ∧ g.IsKind .method b := by
  obtain ⟨ka, kb, ha, hb, hjoin⟩ := hg.linked_joins h
  cases ka <;> cases kb <;> first | exact ⟨ha, hb⟩ | contradiction

theorem isKind_of_contains (hg : g.WellFormed) {a b : NodeId} (h : g.Linked .contains a b) :
    (g.IsKind .file a ∧ g.IsKind .type b) ∨ (g.IsKind .type a ∧ g.IsKind .method b) := by
  obtain ⟨ka, kb, ha, hb, hjoin⟩ := hg.linked_joins h
  cases ka <;> cases kb <;> first | exact .inl ⟨ha, hb⟩ | exact .inr ⟨ha, hb⟩ | contradiction

theorem isKind_of_contains_file (hg : g.WellFormed) {a b : NodeId} (h : g.Linked .contains a b)
    (ha : g.IsKind .file a) : g.IsKind .type b := by
  cases hg.isKind_of_contains h with
  | inl hfile => exact hfile.2
  | inr htype => exact absurd (ha.unique htype.1) (by decide)

theorem isKind_of_contains_type (hg : g.WellFormed) {a b : NodeId} (h : g.Linked .contains a b)
    (hb : g.IsKind .type b) : g.IsKind .file a := by
  cases hg.isKind_of_contains h with
  | inl hfile => exact hfile.1
  | inr hmethod => exact absurd (hb.unique hmethod.2) (by decide)

theorem isKind_of_contains_method (hg : g.WellFormed) {a b : NodeId} (h : g.Linked .contains a b)
    (hb : g.IsKind .method b) : g.IsKind .type a := by
  cases hg.isKind_of_contains h with
  | inl hfile => exact absurd (hb.unique hfile.2) (by decide)
  | inr hmethod => exact hmethod.1

/-- Two edges of containment in a row lead from a file through a type to a method. -/
theorem isKind_of_contains_contains (hg : g.WellFormed) {a b c : NodeId}
    (hab : g.Linked .contains a b) (hbc : g.Linked .contains b c) :
    g.IsKind .file a ∧ g.IsKind .type b ∧ g.IsKind .method c := by
  obtain ⟨hfile, htype⟩ | ⟨-, hmethod⟩ := hg.isKind_of_contains hab
  · obtain ⟨hfile', -⟩ | ⟨-, hmethod⟩ := hg.isKind_of_contains hbc
    · exact absurd (htype.unique hfile') (by decide)
    · exact ⟨hfile, htype, hmethod⟩
  · obtain ⟨hfile', -⟩ | ⟨htype, -⟩ := hg.isKind_of_contains hbc
    · exact absurd (hmethod.unique hfile') (by decide)
    · exact absurd (hmethod.unique htype) (by decide)

/-! ## declarations -/

theorem mem_declaringTypes_method (hg : g.WellFormed) {m t : NodeId} (hm : g.IsKind .method m) :
    t ∈ g.declaringTypes m ↔ g.Linked .contains t m := by
  obtain ⟨n, hn, hkind⟩ := hm
  rw [declaringTypes, hn, Option.map_some, hkind]
  exact hg.mem_predecessors

theorem mem_declaringTypes_field (hg : g.WellFormed) {f t : NodeId} (hf : g.IsKind .field f) :
    t ∈ g.declaringTypes f ↔ g.Linked .hasField t f := by
  obtain ⟨n, hn, hkind⟩ := hf
  rw [declaringTypes, hn, Option.map_some, hkind]
  exact hg.mem_predecessors

theorem isKind_of_mem_declaringTypes (hg : g.WellFormed) {id t : NodeId}
    (h : t ∈ g.declaringTypes id) : g.IsKind .type t := by
  unfold declaringTypes at h
  split at h
  · next hkind =>
      obtain ⟨n, hn, hn'⟩ := Option.map_eq_some_iff.mp hkind
      exact hg.isKind_of_contains_method (hg.mem_predecessors.mp h) ⟨n, hn, hn'⟩
  · obtain ⟨ka, kb, ha, -, hjoin⟩ := hg.linked_joins (hg.mem_predecessors.mp h)
    cases ka <;> cases kb <;> first | exact ha | contradiction
  · contradiction

theorem mem_declaringFiles (hg : g.WellFormed) {t f : NodeId} :
    f ∈ g.declaringFiles t ↔ g.Linked .contains f t :=
  hg.mem_predecessors

/-! ## keys -/

theorem isKind_of_find? (hg : g.WellFormed) {kind : NodeKind} {key : String} {id : NodeId}
    (h : g.find? kind key = some id) : g.IsKind kind id := by
  obtain ⟨n, hn, hkind, -⟩ := (hg.find?_iff kind key id).mp h
  exact ⟨n, hn, hkind⟩

/-- A node is found under one key only. -/
theorem key_unique (hg : g.WellFormed) {kind kind' : NodeKind} {key key' : String} {id : NodeId}
    (h : g.find? kind key = some id) (h' : g.find? kind' key' = some id) : key = key' := by
  obtain ⟨n, hn, -, rfl⟩ := (hg.find?_iff kind key id).mp h
  obtain ⟨n', hn', -, rfl⟩ := (hg.find?_iff kind' key' id).mp h'
  rw [Option.some.inj (hn.symm.trans hn')]

theorem find?_method_iff (hg : g.WellFormed) {signature : String} {id : NodeId} :
    g.find? .method signature = some id ↔
      ∃ returnType parameterTypes,
        g.node? id = some ⟨id, .method signature returnType parameterTypes⟩ := by
  rw [hg.find?_iff]
  constructor
  · rintro ⟨n, hn, hkind, rfl⟩
    obtain ⟨signature, returnType, parameterTypes, hsymbol, hkey, -⟩ := Node.eq_method hkind
    refine ⟨returnType, parameterTypes, ?_⟩
    rw [hn, ← (hg.node?_iff.mp hn).2, hkey, ← hsymbol]
  · rintro ⟨returnType, parameterTypes, hn⟩
    exact ⟨_, hn, rfl, rfl⟩

/-- The methods of a simple name are those whose signature shows it. -/
theorem mem_methodsNamed (hg : g.WellFormed) {name : String} {id : NodeId} :
    id ∈ g.methodsNamed name ↔
      ∃ signature, g.find? .method signature = some id ∧ Signature.simpleName signature = name := by
  rw [hg.methodsNamed_eq, List.mem_map]
  simp only [List.mem_filter, nodesOfKind, beq_iff_eq, Array.mem_toList_iff, hg.find?_iff]
  constructor
  · rintro ⟨n, ⟨⟨hn, hkind⟩, rfl⟩, rfl⟩
    obtain ⟨signature, _, _, -, hkey, hname⟩ := Node.eq_method hkind
    exact ⟨signature, ⟨n, hg.node?_iff.mpr ⟨hn, rfl⟩, hkind, hkey⟩, hname.symm⟩
  · rintro ⟨signature, ⟨n, hn, hkind, rfl⟩, rfl⟩
    obtain ⟨_, _, _, -, hkey, hname⟩ := Node.eq_method hkind
    exact ⟨n, ⟨⟨(hg.node?_iff.mp hn).1, hkind⟩, hkey ▸ hname⟩, (hg.node?_iff.mp hn).2⟩

end WellFormed

end Graph

end Ripple
