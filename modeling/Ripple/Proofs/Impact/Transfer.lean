import Ripple.Proofs.Impact.Answer
import Ripple.Proofs.Impact.Order

/-!
# Ripple.Proofs.Impact.Transfer

What a graph answers, a graph that it is embedded in answers too.

For each question there is one lemma here.  A question about a member that is answered stays
answered, and its report is within the new one (`fieldImpact_within`, `methodImpact_within`).  For a
class the same holds if there is an answer at all: what called into the class may have become part
of it (`classImpact_within`).  A flat question stays answered, and its methods are mapped into the
new list (`fieldAccess_lists`, `upstreamCallers_lists`, `downstreamCallees_lists`).
-/

namespace Ripple

namespace Query

variable {keeps : Int → Int → Prop} {φ : NodeId → NodeId} {g g' : Graph}

/-! ## full questions -/

theorem fieldImpact_within (h : g.Carries keeps φ g') (hg : g.WellFormed) (hg' : g'.WellFormed)
    {fieldName className : String} {r : Report}
    (hr : (fieldImpact (.unbounded g) fieldName className).answer = .ok r) :
    ∃ r', (fieldImpact (.unbounded g') fieldName className).answer = .ok r' ∧
      r.Within keeps r' := by
  obtain ⟨field, type, hl⟩ := (fieldImpact_isOk hg).mp ⟨r, hr⟩
  obtain ⟨chain, hchain, hanswer⟩ := fieldImpact_answer hg hl
  obtain ⟨chain', hchain', hanswer'⟩ := fieldImpact_answer hg' (h.located hg hg' hl)
  obtain rfl := Except.ok.inj (hanswer.symm.trans hr)
  refine ⟨_, hanswer', rfl, Assembly.assemble_within h hg hg' ?_ ?_⟩
  · refine selection_maps h.toEmbeds hg hg' type ?_ (by simp)
    intro m hm
    exact (hchain' _).mpr (h.fieldChain hg hg' ((hchain m).mp hm))
  · exact selection_files_isKind hg (hg.isKind_of_find? hl.type_found) chain [field]

theorem methodImpact_within (h : g.Carries keeps φ g') (hg : g.WellFormed) (hg' : g'.WellFormed)
    {signature className : String} {r : Report}
    (hr : (methodImpact (.unbounded g) signature className).answer = .ok r) :
    ∃ r', (methodImpact (.unbounded g') signature className).answer = .ok r' ∧
      r.Within keeps r' := by
  obtain ⟨method, type, hl⟩ := (methodImpact_isOk hg).mp ⟨r, hr⟩
  obtain ⟨chain, fields, hchain, hfields, hanswer⟩ := methodImpact_answer hg hl
  obtain ⟨chain', fields', hchain', hfields', hanswer'⟩ :=
    methodImpact_answer hg' (h.located hg hg' hl)
  obtain rfl := Except.ok.inj (hanswer.symm.trans hr)
  refine ⟨_, hanswer', rfl, Assembly.assemble_within h hg hg' ?_ ?_⟩
  · refine selection_maps h.toEmbeds hg hg' type ?_ ?_
    · intro m hm
      exact (hchain' _).mpr (h.methodChain hg hg' ((hchain m).mp hm))
    · intro f hf
      exact (hfields' _).mpr (h.accesses ((hfields f).mp hf))
  · exact selection_files_isKind hg (hg.isKind_of_find? hl.type_found) chain fields

/-- A question about a class is answered when the class is there and something refers to it. -/
theorem classImpact_isOk (hg : g.WellFormed) {className : String} :
    (∃ r, (classImpact (.unbounded g) className).answer = .ok r) ↔
      Text.isBlank className = false ∧ ∃ type, g.find? .type className = some type ∧
        ¬ Unreferenced g className type := by
  by_cases hfound : Known g .type className
  · obtain ⟨type, hname, htype⟩ := hfound
    simp only [hname, htype, true_and, Option.some.injEq, exists_eq_left']
    obtain ⟨hunref, hanswer⟩ | ⟨hunref, chain, fields, typed, -, -, -, hanswer⟩ :=
      classImpact_answer hg hname htype
    · simp [hanswer, hunref]
    · simp [hanswer, hunref]
  · have hanswer := classImpact_of_unknown (s := .unbounded g) hfound
    simp only [hanswer, reduceCtorEq, exists_false, false_iff]
    rintro ⟨hname, type, htype, -⟩
    exact hfound ⟨type, hname, htype⟩

theorem ne_empty_of_not_blank {s : String} (h : Text.isBlank s = false) : s ≠ "" := by
  rintro rfl
  contradiction

theorem classImpact_within (h : g.Carries keeps φ g') (hg : g.WellFormed) (hg' : g'.WellFormed)
    {className : String} {r r' : Report}
    (hr : (classImpact (.unbounded g) className).answer = .ok r)
    (hr' : (classImpact (.unbounded g') className).answer = .ok r') : r.Within keeps r' := by
  obtain ⟨hname, type, htype, hrefers⟩ := (classImpact_isOk hg).mp ⟨r, hr⟩
  obtain ⟨-, type', htype', hrefers'⟩ := (classImpact_isOk hg').mp ⟨r', hr'⟩
  obtain rfl := Option.some.inj ((h.find? hg hg' htype).symm.trans htype')
  obtain ⟨chain, fields, typed, hchain, hfields, htyped, hanswer⟩ :=
    ((classImpact_answer hg hname htype).resolve_left fun hunref => hrefers hunref.1).2
  obtain ⟨chain', fields', typed', hchain', hfields', htyped', hanswer'⟩ :=
    ((classImpact_answer hg' hname htype').resolve_left fun hunref => hrefers' hunref.1).2
  obtain rfl := Except.ok.inj (hanswer.symm.trans hr)
  obtain rfl := Except.ok.inj (hanswer'.symm.trans hr')
  refine ⟨rfl, Assembly.assemble_within h hg hg' ?_ ?_⟩
  · refine classSelection_maps h.toEmbeds hg hg' type ?_ ?_ ?_
    · intro m hm
      exact (hchain' _).mpr (h.classChain hg hg' (ne_empty_of_not_blank hname) ((hchain m).mp hm))
    · intro f hf
      exact (hfields' _).mpr (((hfields f).mp hf).imp h.linked (h.fieldMentions hg'))
    · intro f hf
      exact (htyped' _).mpr (h.fieldMentions hg' ((htyped f).mp hf))
  · exact classSelection_files_isKind hg (hg.isKind_of_find? htype) chain fields typed

/-! ## flat questions -/

/-- A list of the methods of a graph, each once. -/
structure Lists (g : Graph) (found : List NodeId) (l : MethodList) : Prop where
  nodup : found.Nodup
  methods : ∀ m ∈ found, g.IsKind .method m
  list_eq : l = ⟨describe g found, false⟩

/-- Two lists such that the methods of the one are mapped to methods of the other. -/
def MapsList (φ : NodeId → NodeId) (g g' : Graph) (l l' : MethodList) : Prop :=
  ∃ found found', Lists g found l ∧ Lists g' found' l' ∧ ∀ m ∈ found, φ m ∈ found'

/-- What is found is listed, if it is more than nothing. -/
theorem listing_eq_ok {nothing : String} {found : List NodeId} {l : MethodList} :
    listing g 0 nothing found = .ok l ↔ found ≠ [] ∧ l = ⟨describe g found, false⟩ := by
  cases found with
  | nil => simp [listing]
  | cons m ms => simp [listing, eq_comm]

/-- A list that is mapped into another one and is not empty makes the other one an answer. -/
theorem exists_listing {nothing : String} {found found' : List NodeId} {l : MethodList}
    (hl : listing g 0 nothing found = .ok l) (hnodup : found.Nodup) (hnodup' : found'.Nodup)
    (hmethods : ∀ m ∈ found, g.IsKind .method m) (hmethods' : ∀ m ∈ found', g'.IsKind .method m)
    (hmaps : ∀ m ∈ found, φ m ∈ found') :
    ∃ l', listing g' 0 nothing found' = .ok l' ∧ MapsList φ g g' l l' := by
  obtain ⟨hne, rfl⟩ := listing_eq_ok.mp hl
  obtain ⟨m, hm⟩ := List.exists_mem_of_ne_nil found hne
  exact ⟨_, listing_eq_ok.mpr ⟨List.ne_nil_of_mem (hmaps m hm), rfl⟩, found, found',
    ⟨hnodup, hmethods, rfl⟩, ⟨hnodup', hmethods', rfl⟩, hmaps⟩

theorem isKind_of_accesses (hg : g.WellFormed) {m f : NodeId} (h : g.Accesses m f) :
    g.IsKind .method m := by
  rcases h with h | h <;> obtain ⟨ka, kb, ha, -, hjoin⟩ := hg.linked_joins h <;>
    cases ka <;> cases kb <;> first | exact ha | contradiction

/-- The methods that access a field still do. -/
theorem fieldAccess_lists (h : g.Embeds φ g') (hg : g.WellFormed) (hg' : g'.WellFormed)
    {kind : EdgeKind} (hkind : kind = .reads ∨ kind = .writes) {what fieldName : String}
    {l : MethodList} (hl : (fieldAccess (.unbounded g) kind what fieldName).answer = .ok l) :
    ∃ l', (fieldAccess (.unbounded g') kind what fieldName).answer = .ok l' ∧
      MapsList φ g g' l l' := by
  by_cases hfound : Known g .field fieldName
  · obtain ⟨field, hname, hfield⟩ := hfound
    have hfield' := h.find? hg hg' hfield
    have hmethods : ∀ {g : Graph} {f : NodeId}, g.WellFormed →
        ∀ m ∈ g.predecessors f kind, g.IsKind .method m := by
      intro g f hg m hm
      refine isKind_of_accesses (f := f) hg ?_
      rcases hkind with rfl | rfl
      · exact .inl (hg.mem_predecessors.mp hm)
      · exact .inr (hg.mem_predecessors.mp hm)
    rw [fieldAccess_answer (s := .unbounded g) ⟨hname, hfield⟩] at hl
    rw [fieldAccess_answer (s := .unbounded g') ⟨hname, hfield'⟩]
    refine exists_listing hl (NodeId.nodup_setOf _) (NodeId.nodup_setOf _) (hmethods hg)
      (hmethods hg') ?_
    intro m hm
    exact hg'.mem_predecessors.mpr (h.linked (hg.mem_predecessors.mp hm))
  · cases (fieldAccess_of_unknown (s := .unbounded g) hfound).symm.trans hl

/-- A path of calls starts and ends at methods. -/
theorem isKind_of_transGen_calls (hg : g.WellFormed) {a b : NodeId}
    (h : Relation.TransGen (g.Linked .calls) a b) : g.IsKind .method a ∧ g.IsKind .method b := by
  induction h with
  | single hab => exact hg.isKind_of_calls hab
  | tail _ hbc ih => exact ⟨ih.1, (hg.isKind_of_calls hbc).2⟩

theorem isKind_of_upstream (hg : g.WellFormed) {P : NodeId → Prop} {m : NodeId}
    (h : g.Upstream P m) : g.IsKind .method m := by
  obtain ⟨t, -, hcalls⟩ := h
  exact (isKind_of_transGen_calls hg hcalls).1

theorem isKind_of_downstream (hg : g.WellFormed) {P : NodeId → Prop} {m : NodeId}
    (h : g.Downstream P m) : g.IsKind .method m := by
  obtain ⟨s, -, hcalls⟩ := h
  exact (isKind_of_transGen_calls hg hcalls).2

/-- Methods keep their signature, and with it their simple name. -/
theorem mem_methodsNamed_iff (h : g.Embeds φ g') (hg : g.WellFormed) (hg' : g'.WellFormed)
    {name : String} {m : NodeId} (hm : g.IsKind .method m) :
    φ m ∈ g'.methodsNamed name ↔ m ∈ g.methodsNamed name := by
  have hkey : g.find? .method (Assembly.keyOf g m) = some m :=
    (Assembly.find?_eq_some_iff hg).mpr ⟨hm, rfl⟩
  have hkey' := h.find? hg hg' hkey
  simp only [hg.mem_methodsNamed, hg'.mem_methodsNamed]
  constructor
  · rintro ⟨signature, hfind, hname⟩
    exact ⟨_, hkey, hg'.key_unique hfind hkey' ▸ hname⟩
  · rintro ⟨signature, hfind, hname⟩
    exact ⟨_, hkey', hg.key_unique hfind hkey ▸ hname⟩

theorem mem_methodsNamed_of_mem (h : g.Embeds φ g') (hg : g.WellFormed) (hg' : g'.WellFormed)
    {name : String} {m : NodeId} (hm : m ∈ g.methodsNamed name) : φ m ∈ g'.methodsNamed name := by
  obtain ⟨signature, hfind, -⟩ := hg.mem_methodsNamed.mp hm
  exact (mem_methodsNamed_iff h hg hg' (hg.isKind_of_find? hfind)).mpr hm

theorem methodsNamed_ne_nil (h : g.Embeds φ g') (hg : g.WellFormed) (hg' : g'.WellFormed)
    {name : String} (hne : g.methodsNamed name ≠ []) : g'.methodsNamed name ≠ [] := by
  obtain ⟨m, hm⟩ := List.exists_mem_of_ne_nil _ hne
  exact List.ne_nil_of_mem (mem_methodsNamed_of_mem h hg hg' hm)

/-- What reaches a method of a name still does, and is not of that name. -/
theorem upstreamCallers_lists (h : g.Embeds φ g') (hg : g.WellFormed) (hg' : g'.WellFormed)
    {methodName : String} {l : MethodList}
    (hl : (upstreamCallers (.unbounded g) methodName).answer = .ok l) :
    ∃ l', (upstreamCallers (.unbounded g') methodName).answer = .ok l' ∧ MapsList φ g g' l l' := by
  by_cases hfound : Text.isBlank methodName = false ∧ g.methodsNamed methodName ≠ []
  · have hfound' := methodsNamed_ne_nil h hg hg' hfound.2
    obtain ⟨found, hnodup, hmem, hanswer⟩ := upstreamCallers_answer hg hfound
    obtain ⟨found', hnodup', hmem', hanswer'⟩ := upstreamCallers_answer hg' ⟨hfound.1, hfound'⟩
    have hmethods : ∀ m ∈ found, g.IsKind .method m :=
      fun m hm => isKind_of_upstream hg ((hmem m).mp hm).2
    have hmethods' : ∀ m ∈ found', g'.IsKind .method m :=
      fun m hm => isKind_of_upstream hg' ((hmem' m).mp hm).2
    rw [← Scope.capped_zero, hanswer 0] at hl
    rw [← Scope.capped_zero, hanswer' 0]
    refine exists_listing hl hnodup hnodup' hmethods hmethods' ?_
    intro m hm
    obtain ⟨hout, hup⟩ := (hmem m).mp hm
    refine (hmem' _).mpr ⟨?_, h.upstream (fun t => mem_methodsNamed_of_mem h hg hg') hup⟩
    exact mt (mem_methodsNamed_iff h hg hg' (hmethods m hm)).mp hout
  · cases (upstreamCallers_of_unknown (s := .unbounded g) hfound).symm.trans hl

/-- What a method reaches it still reaches. -/
theorem downstreamCallees_lists (h : g.Embeds φ g') (hg : g.WellFormed) (hg' : g'.WellFormed)
    {signature : String} {l : MethodList}
    (hl : (downstreamCallees (.unbounded g) signature).answer = .ok l) :
    ∃ l', (downstreamCallees (.unbounded g') signature).answer = .ok l' ∧
      MapsList φ g g' l l' := by
  by_cases hfound : Known g .method signature
  · obtain ⟨method, hname, hmethod⟩ := hfound
    have hmethod' := h.find? hg hg' hmethod
    obtain ⟨found, hnodup, hmem, hanswer⟩ := downstreamCallees_answer hg ⟨hname, hmethod⟩
    obtain ⟨found', hnodup', hmem', hanswer'⟩ := downstreamCallees_answer hg' ⟨hname, hmethod'⟩
    have hmethods : ∀ m ∈ found, g.IsKind .method m :=
      fun m hm => isKind_of_downstream hg ((hmem m).mp hm).2
    have hmethods' : ∀ m ∈ found', g'.IsKind .method m :=
      fun m hm => isKind_of_downstream hg' ((hmem' m).mp hm).2
    rw [← Scope.capped_zero, hanswer 0] at hl
    rw [← Scope.capped_zero, hanswer' 0]
    refine exists_listing hl hnodup hnodup' hmethods hmethods' ?_
    intro m hm
    obtain ⟨hne, hdown⟩ := (hmem m).mp hm
    have hself : ∀ t, t = method → φ t = φ method := fun t ht => congrArg φ ht
    refine (hmem' _).mpr ⟨?_, h.downstream hself hdown⟩
    -- the keys of the two methods differ, so their images do
    intro heq
    refine hne (Assembly.keyOf_injective hg (hmethods m hm) (hg.isKind_of_find? hmethod) ?_)
    rw [← h.keyOf (hmethods m hm), ← h.keyOf (hg.isKind_of_find? hmethod), heq]
  · cases (downstreamCallees_of_unknown (s := .unbounded g) hfound).symm.trans hl

end Query

end Ripple
