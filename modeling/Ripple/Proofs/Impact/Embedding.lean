import Ripple.Proofs.Graph.Growth
import Ripple.Proofs.Impact.Class

/-!
# Ripple.Proofs.Impact.Embedding

One graph inside another.

A map of node numbers embeds a graph in another one when each node stays what it is, up to types and
paths that were still missing (`Symbol.Grows`), and each edge leads between the images at the same
line.  Numbers are free to differ, and so is the order in which nodes and edges arrived.  A graph
that gets more facts is embedded in the result by the identity; a graph whose facts arrive in
another order is embedded by a renumbering.

Whatever a question follows is kept by an embedding: keys (`Embeds.find?`), declarations, calls and
accesses, likeness of names, and mentions of a type.  So are the affected methods
(`Embeds.fieldChain`, `Embeds.methodChain`, `Embeds.classChain`).
-/

namespace Ripple

namespace Graph

/-! ## embeddings -/

/-- A map of numbers under which each node stays what it is and each edge stays at its line. -/
structure Embeds (φ : NodeId → NodeId) (g g' : Graph) : Prop where
  node : ∀ id n, g.node? id = some n → ∃ n', g'.node? (φ id) = some n' ∧ n.symbol.Grows n'.symbol
  link : ∀ kind a b line, g.LinkedAt kind a b line → g'.LinkedAt kind (φ a) (φ b) line

theorem Embeds.id (g : Graph) : Embeds id g g where
  node _ n hn := ⟨n, hn, .refl _⟩
  link _ _ _ _ h := h

namespace Embeds

variable {φ : NodeId → NodeId} {g g' : Graph}

theorem linked (h : Embeds φ g g') {kind : EdgeKind} {a b : NodeId} (hab : g.Linked kind a b) :
    g'.Linked kind (φ a) (φ b) := by
  obtain ⟨line, hline⟩ := hab
  exact ⟨line, h.link _ _ _ _ hline⟩

theorem isKind (h : Embeds φ g g') {kind : NodeKind} {id : NodeId} (hid : g.IsKind kind id) :
    g'.IsKind kind (φ id) := by
  obtain ⟨n, hn, rfl⟩ := hid
  obtain ⟨n', hn', hgrows⟩ := h.node id n hn
  exact ⟨n', hn', hgrows.kind_eq⟩

theorem keyOf (h : Embeds φ g g') {kind : NodeKind} {id : NodeId} (hid : g.IsKind kind id) :
    Assembly.keyOf g' (φ id) = Assembly.keyOf g id := by
  obtain ⟨n, hn, -⟩ := hid
  obtain ⟨n', hn', hgrows⟩ := h.node id n hn
  rw [Assembly.keyOf_eq hn, Assembly.keyOf_eq hn']
  exact hgrows.key_eq

theorem nameOf (h : Embeds φ g g') {kind : NodeKind} {id : NodeId} (hid : g.IsKind kind id) :
    Assembly.nameOf g' (φ id) = Assembly.nameOf g id := by
  obtain ⟨n, hn, -⟩ := hid
  obtain ⟨n', hn', hgrows⟩ := h.node id n hn
  rw [Assembly.nameOf_eq hn, Assembly.nameOf_eq hn']
  exact hgrows.name_eq

/-- A key leads to the image of the node that it leads to. -/
theorem find? (h : Embeds φ g g') (hg : g.WellFormed) (hg' : g'.WellFormed) {kind : NodeKind}
    {key : String} {id : NodeId} (hid : g.find? kind key = some id) :
    g'.find? kind key = some (φ id) := by
  obtain ⟨hkind, rfl⟩ := (Assembly.find?_eq_some_iff hg).mp hid
  exact (Assembly.find?_eq_some_iff hg').mpr ⟨h.isKind hkind, h.keyOf hkind⟩

/-! ## declarations -/

theorem mem_declaringTypes (h : Embeds φ g g') (hg : g.WellFormed) (hg' : g'.WellFormed)
    {member type : NodeId} (ht : type ∈ g.declaringTypes member) :
    φ type ∈ g'.declaringTypes (φ member) := by
  cases hkind : (g.node? member).map Node.kind with
  | none => simp [declaringTypes, hkind] at ht
  | some kind =>
      obtain ⟨n, hn, hn'⟩ := Option.map_eq_some_iff.mp hkind
      cases kind with
      | method =>
          have hmethod : g.IsKind .method member := ⟨n, hn, hn'⟩
          have hlink := (hg.mem_declaringTypes_method hmethod).mp ht
          exact (hg'.mem_declaringTypes_method (h.isKind hmethod)).mpr (h.linked hlink)
      | field =>
          have hfield : g.IsKind .field member := ⟨n, hn, hn'⟩
          have hlink := (hg.mem_declaringTypes_field hfield).mp ht
          exact (hg'.mem_declaringTypes_field (h.isKind hfield)).mpr (h.linked hlink)
      | file | type => simp [declaringTypes, hkind] at ht

theorem mem_declaringFiles (h : Embeds φ g g') (hg : g.WellFormed) (hg' : g'.WellFormed)
    {type file : NodeId} (hf : file ∈ g.declaringFiles type) :
    φ file ∈ g'.declaringFiles (φ type) :=
  hg'.mem_declaringFiles.mpr (h.linked (hg.mem_declaringFiles.mp hf))

theorem mem_filesOf (h : Embeds φ g g') (hg : g.WellFormed) (hg' : g'.WellFormed)
    {members members' : List NodeId} (hmembers : ∀ m ∈ members, φ m ∈ members') {file : NodeId}
    (hf : file ∈ Query.filesOf g members) : φ file ∈ Query.filesOf g' members' := by
  simp only [Query.filesOf, NodeId.mem_setOf, List.mem_flatMap] at hf ⊢
  obtain ⟨m, hm, T, hT, hF⟩ := hf
  exact ⟨φ m, hmembers m hm, φ T, h.mem_declaringTypes hg hg' hT, h.mem_declaringFiles hg hg' hF⟩

theorem located (h : Embeds φ g g') (hg : g.WellFormed) (hg' : g'.WellFormed) {kind : NodeKind}
    {key className : String} {member type : NodeId}
    (hl : Query.Located g kind key className member type) :
    Query.Located g' kind key className (φ member) (φ type) where
  key_given := hl.key_given
  class_given := hl.class_given
  member_found := h.find? hg hg' hl.member_found
  type_found := h.find? hg hg' hl.type_found
  declared := h.mem_declaringTypes hg hg' hl.declared

/-! ## calls, accesses and likeness -/

theorem accesses (h : Embeds φ g g') {m f : NodeId} (hm : g.Accesses m f) :
    g'.Accesses (φ m) (φ f) :=
  hm.imp h.linked h.linked

theorem overloads (h : Embeds φ g g') (hg : g.WellFormed) (hg' : g'.WellFormed) {c m : NodeId}
    (hc : g.Overloads c m) : g'.Overloads (φ c) (φ m) := by
  obtain ⟨s, t, hs, ht, hname, hne⟩ := hc
  exact ⟨s, t, h.find? hg hg' hs, h.find? hg hg' ht, hname, hne⟩

theorem upstream (h : Embeds φ g g') {P Q : NodeId → Prop} (hPQ : ∀ t, P t → Q (φ t)) {m : NodeId}
    (hm : g.Upstream P m) : g'.Upstream Q (φ m) := by
  obtain ⟨t, ht, hcalls⟩ := hm
  exact ⟨φ t, hPQ t ht, hcalls.lift φ fun _ _ => h.linked⟩

theorem downstream (h : Embeds φ g g') {P Q : NodeId → Prop} (hPQ : ∀ t, P t → Q (φ t)) {m : NodeId}
    (hm : g.Downstream P m) : g'.Downstream Q (φ m) := by
  obtain ⟨s, hs, hcalls⟩ := hm
  exact ⟨φ s, hPQ s hs, hcalls.lift φ fun _ _ => h.linked⟩

/-! ## mentions -/

/-- The types of a field are still there. -/
theorem fieldMentions (h : Embeds φ g g') (hg' : g'.WellFormed) {name : String} {f : NodeId}
    (hf : g.FieldMentions name f) : g'.FieldMentions name (φ f) := by
  obtain ⟨key, types, hn, text, htext, hshows⟩ := hf
  obtain ⟨⟨id', symbol'⟩, hn', hgrows⟩ := h.node f _ hn
  obtain rfl := (hg'.node?_iff.mp hn').2
  cases hgrows with
  | field _ htypes => exact ⟨key, _, hn', text, htypes htext, hshows⟩

/-- An empty type shows no name, so filling it in takes no mention away. -/
theorem methodMentions (h : Embeds φ g g') (hg' : g'.WellFormed) {name : String}
    (hname : name ≠ "") {m : NodeId} (hm : g.MethodMentions name m) :
    g'.MethodMentions name (φ m) := by
  obtain ⟨signature, ret, params, hn, hshows⟩ := hm
  obtain ⟨⟨id', symbol'⟩, hn', hgrows⟩ := h.node m _ hn
  obtain rfl := (hg'.node?_iff.mp hn').2
  cases hgrows with
  | method _ hret hparams =>
      refine ⟨signature, _, _, hn', ?_⟩
      rcases hshows with hshows | ⟨text, htext, hshows⟩
      · rcases hret with rfl | rfl
        · simp [hname] at hshows
        · exact .inl hshows
      · rcases hparams with rfl | rfl
        · simp at htext
        · exact .inr ⟨text, htext, hshows⟩

/-! ## affected methods -/

open Query

theorem fieldChain (h : Embeds φ g g') (hg : g.WellFormed) (hg' : g'.WellFormed) {field m : NodeId}
    (hm : FieldChain g field m) : FieldChain g' (φ field) (φ m) := by
  have htouches : ∀ t, Touches g field t → Touches g' (φ field) (φ t) := by
    rintro t (hread | ⟨d, hread, hover⟩)
    · exact .inl (h.accesses hread)
    · exact .inr ⟨φ d, h.accesses hread, h.overloads hg hg' hover⟩
  exact hm.imp (htouches m) (h.upstream htouches)

theorem shares (h : Embeds φ g g') {method m : NodeId} (hm : Shares g method m) :
    Shares g' (φ method) (φ m) := by
  obtain ⟨f, hf, hf'⟩ := hm
  exact ⟨φ f, h.accesses hf, h.accesses hf'⟩

theorem methodChain (h : Embeds φ g g') (hg : g.WellFormed) (hg' : g'.WellFormed)
    {method m : NodeId} (hm : MethodChain g method m) : MethodChain g' (φ method) (φ m) := by
  have hself : ∀ t, t = method → φ t = φ method := fun t ht => congrArg φ ht
  have hover : ∀ t, g.Overloads t method → g'.Overloads (φ t) (φ method) :=
    fun t => h.overloads hg hg'
  refine hm.imp (Or.imp (hself m) (h.upstream hself)) (Or.imp (h.downstream hself) (Or.imp ?_ ?_))
  · exact Or.imp h.shares (h.upstream fun t => h.shares)
  · exact Or.imp (hover m) (h.upstream hover)

theorem withCallers (h : Embeds φ g g') {P Q : NodeId → Prop} (hPQ : ∀ t, P t → Q (φ t))
    {m : NodeId} (hm : WithCallers g P m) : WithCallers g' Q (φ m) :=
  hm.imp (hPQ m) (h.upstream hPQ)

theorem classChain (h : Embeds φ g g') (hg : g.WellFormed) (hg' : g'.WellFormed)
    {className : String} (hname : className ≠ "") {type m : NodeId}
    (hm : ClassChain g className type m) : ClassChain g' className (φ type) (φ m) := by
  have hown : ∀ t, g.Linked .contains type t → g'.Linked .contains (φ type) (φ t) :=
    fun t => h.linked
  refine hm.imp (h.withCallers hown) (Or.imp (h.downstream hown) (Or.imp ?_ (Or.imp ?_ ?_)))
  · refine h.withCallers ?_
    rintro t ⟨f, hf, ht⟩
    exact ⟨φ f, h.linked hf, h.accesses ht⟩
  · exact h.withCallers fun t => h.methodMentions hg' hname
  · refine h.withCallers ?_
    rintro t ⟨d, hd, ht⟩
    exact ⟨φ d, h.linked hd, h.overloads hg hg' ht⟩

end Embeds

end Graph

end Ripple
