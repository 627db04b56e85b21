import Ripple.Proofs.Impact.Transfer

/-!
# Ripple.Proofs.Impact.Renumbering

Answers do not depend on the order in which facts arrive.

The order of arrival shows in a graph as the numbers of its nodes and the order of its edges.  A map
of numbers makes two graphs correspond (`Graph.Corresponds`) when nodes are alike and the edges are
the same, at the same lines; it is then undone by looking up keys (`Corresponds.back`), so both
graphs are embedded in each other.  Reports are therefore within each other, and lists have the same
entries; since all lists are arranged by keys in which no number occurs, they are equal
(`ask_renumbered`).

The one place where the order of arrival would show is a type that a file declares at two lines, of
which the first to arrive is listed; `Graph.DeclaresOnce` excludes it.
-/

namespace Ripple

/-! ## alike elements -/

/-- The same code element; the types of a field may have arrived in another order. -/
inductive Symbol.Alike : Symbol → Symbol → Prop where
  | same (s : Symbol) : Alike s s
  | field (name : String) {types types' : List String} (htypes : ∀ t, t ∈ types ↔ t ∈ types') :
    Alike (.field name types) (.field name types')

namespace Symbol.Alike

theorem symm {s t : Symbol} (h : s.Alike t) : t.Alike s := by
  cases h with
  | same => exact .same s
  | field name htypes => exact .field name fun t => (htypes t).symm

theorem grows {s t : Symbol} (h : s.Alike t) : s.Grows t := by
  cases h with
  | same => exact .refl s
  | field name htypes => exact .field name fun t => (htypes t).mp

theorem path_eq {s t : Symbol} (h : s.Alike t) : t.path = s.path := by cases h <;> rfl

end Symbol.Alike

namespace Graph

/-! ## corresponding graphs -/

/-- A map of numbers under which two graphs have the same nodes and the same edges.  Nodes go
one-to-one since they keep their keys. -/
structure Corresponds (φ : NodeId → NodeId) (g g' : Graph) : Prop where
  node : ∀ id n, g.node? id = some n → ∃ n', g'.node? (φ id) = some n' ∧ n.symbol.Alike n'.symbol
  node_onto : ∀ id' n', g'.node? id' = some n' → ∃ id n, g.node? id = some n ∧ φ id = id'
  link : ∀ kind a b line, g.LinkedAt kind a b line → g'.LinkedAt kind (φ a) (φ b) line
  link_onto : ∀ kind a' b' line, g'.LinkedAt kind a' b' line →
    ∃ a b, g.LinkedAt kind a b line ∧ φ a = a' ∧ φ b = b'

/-- No file declares a type at two lines. -/
def DeclaresOnce (g : Graph) : Prop :=
  ∀ F T line line', g.IsKind .file F → g.LinkedAt .contains F T line →
    g.LinkedAt .contains F T line' → line = line'

/-- The node of a graph with the kind and the key of a node of another one. -/
def back (g g' : Graph) (id' : NodeId) : NodeId :=
  ((g'.node? id').bind fun n' => g.find? n'.kind n'.key).getD id'

namespace Corresponds

variable {φ : NodeId → NodeId} {g g' : Graph}

theorem embeds (h : Corresponds φ g g') : Embeds φ g g' where
  node id n hn := by
    obtain ⟨n', hn', halike⟩ := h.node id n hn
    exact ⟨n', hn', halike.grows⟩
  link := h.link

/-- Looking up keys undoes the map. -/
theorem back_apply (h : Corresponds φ g g') (hg : g.WellFormed) {kind : NodeKind} {id : NodeId}
    (hid : g.IsKind kind id) : back g g' (φ id) = id := by
  obtain ⟨n, hn, -⟩ := hid
  obtain ⟨n', hn', halike⟩ := h.node id n hn
  have hfind : g.find? n'.kind n'.key = some id :=
    (hg.find?_iff _ _ _).mpr ⟨n, hn, halike.grows.kind_eq.symm, halike.grows.key_eq.symm⟩
  simp [back, hn', hfind]

/-- The map that looks up keys makes the graphs correspond the other way round. -/
theorem symm (h : Corresponds φ g g') (hg : g.WellFormed) : Corresponds (back g g') g' g where
  node id' n' hn' := by
    obtain ⟨id, n, hn, rfl⟩ := h.node_onto id' n' hn'
    obtain ⟨n'', hn'', halike⟩ := h.node id n hn
    obtain rfl := Option.some.inj (hn''.symm.trans hn')
    rw [h.back_apply hg ⟨n, hn, rfl⟩]
    exact ⟨n, hn, halike.symm⟩
  node_onto id n hn := by
    obtain ⟨n', hn', -⟩ := h.node id n hn
    exact ⟨φ id, n', hn', h.back_apply hg ⟨n, hn, rfl⟩⟩
  link kind a' b' line hlink := by
    obtain ⟨a, b, hab, rfl, rfl⟩ := h.link_onto kind a' b' line hlink
    obtain ⟨ka, kb, ha, hb, -⟩ := hg.linked_joins ⟨line, hab⟩
    rwa [h.back_apply hg ha, h.back_apply hg hb]
  link_onto kind a b line hlink := by
    obtain ⟨ka, kb, ha, hb, -⟩ := hg.linked_joins ⟨line, hlink⟩
    exact ⟨φ a, φ b, h.link kind a b line hlink, h.back_apply hg ha, h.back_apply hg hb⟩

end Corresponds

/-- Declaring once is inherited by a graph that is embedded. -/
theorem DeclaresOnce.of_embeds {φ : NodeId → NodeId} {g g' : Graph} (h : Embeds φ g g')
    (honce : g'.DeclaresOnce) : g.DeclaresOnce := by
  intro F T line line' hF hline hline'
  exact honce (φ F) (φ T) line line' (h.isKind hF) (h.link _ _ _ _ hline) (h.link _ _ _ _ hline')

end Graph

namespace Assembly

variable {g : Graph}

theorem linkedAt_of_firstLine? (hg : g.WellFormed) {F T : NodeId} {kind : EdgeKind} {line : Int}
    (h : firstLine? (g.outgoing F kind) T = some line) : g.LinkedAt kind F T line := by
  obtain ⟨e, he, rfl⟩ := Option.map_eq_some_iff.mp h
  have htarget : e.target = T := by simpa using List.find?_some he
  exact hg.exists_mem_outgoing.mp ⟨e, List.mem_of_find?_eq_some he, htarget, rfl⟩

theorem exists_firstLine? (hg : g.WellFormed) {F T : NodeId} {kind : EdgeKind} {line : Int}
    (h : g.LinkedAt kind F T line) : ∃ line', firstLine? (g.outgoing F kind) T = some line' := by
  obtain ⟨e, he, htarget, -⟩ := hg.exists_mem_outgoing.mpr h
  have hsome : ((g.outgoing F kind).find? (·.target == T)).isSome :=
    List.find?_isSome.mpr ⟨e, he, beq_iff_eq.mpr htarget⟩
  obtain ⟨e', he'⟩ := Option.isSome_iff_exists.mp hsome
  exact ⟨e'.line, by rw [firstLine?, he', Option.map_some]⟩

end Assembly

/-- The lines of declarations correspond. -/
theorem Graph.Corresponds.carries {φ : NodeId → NodeId} {g g' : Graph} (h : Corresponds φ g g')
    (hg : g.WellFormed) (hg' : g'.WellFormed) (honce : g'.DeclaresOnce) : Carries Eq φ g g' where
  toEmbeds := h.embeds
  first F T line hF hline := by
    have hlink := h.link _ _ _ _ (Assembly.linkedAt_of_firstLine? hg hline)
    obtain ⟨line', hline'⟩ := Assembly.exists_firstLine? hg' hlink
    have hlink' := Assembly.linkedAt_of_firstLine? hg' hline'
    rw [hline', honce _ _ _ _ (h.embeds.isKind hF) hlink hlink']
  least T m line hleast := by
    refine ⟨line, ⟨h.link _ _ _ _ hleast.1, ?_⟩, rfl⟩
    intro l hl
    obtain ⟨kT, km, hT, hm, -⟩ := hg.linked_joins ⟨line, hleast.1⟩
    have hback := (h.symm hg).link _ _ _ _ hl
    rw [h.back_apply hg hT, h.back_apply hg hm] at hback
    exact hleast.2 hback

/-- Two graphs whose facts differ in the order of arrival only. -/
structure Graph.Renumbered (φ : NodeId → NodeId) (g g' : Graph) : Prop extends
    Corresponds φ g g' where
  wellFormed : g.WellFormed
  wellFormed' : g'.WellFormed
  once : g.DeclaresOnce
  once' : g'.DeclaresOnce

namespace Graph.Renumbered

variable {φ : NodeId → NodeId} {g g' : Graph}

theorem symm (h : Renumbered φ g g') : Renumbered (back g g') g' g where
  toCorresponds := h.toCorresponds.symm h.wellFormed
  wellFormed := h.wellFormed'
  wellFormed' := h.wellFormed
  once := h.once'
  once' := h.once

theorem carries (h : Renumbered φ g g') : Carries Eq φ g g' :=
  h.toCorresponds.carries h.wellFormed h.wellFormed' h.once'

theorem find?_isSome (h : Renumbered φ g g') (kind : NodeKind) (key : String) :
    (g'.find? kind key).isSome = (g.find? kind key).isSome := by
  rw [Bool.eq_iff_iff, Option.isSome_iff_exists, Option.isSome_iff_exists]
  constructor
  · rintro ⟨id', hid'⟩
    exact ⟨_, h.symm.embeds.find? h.wellFormed' h.wellFormed hid'⟩
  · rintro ⟨id, hid⟩
    exact ⟨_, h.embeds.find? h.wellFormed h.wellFormed' hid⟩

theorem known_iff (h : Renumbered φ g g') {kind : NodeKind} {key : String} :
    Query.Known g kind key ↔ Query.Known g' kind key := by
  simp only [Query.Known, exists_and_left, ← Option.isSome_iff_exists, h.find?_isSome]

end Graph.Renumbered

namespace Query

variable {g g' : Graph} {φ : NodeId → NodeId}

/-! ## reports -/

/-- Without a cap nothing is cut, and all lists are in their orders. -/
structure WholeReport (r : Report) : Prop where
  files : FilesArranged r.files
  not_truncated : r.truncated = false

theorem fieldImpact_whole (hg : g.WellFormed) {fieldName className : String} {r : Report}
    (hr : (fieldImpact (.unbounded g) fieldName className).answer = .ok r) : WholeReport r := by
  obtain ⟨field, type, hl⟩ := (fieldImpact_isOk hg).mp ⟨r, hr⟩
  obtain ⟨chain, -, hanswer⟩ := fieldImpact_answer hg hl
  obtain rfl := Except.ok.inj (hanswer.symm.trans hr)
  have htype := hg.isKind_of_find? hl.type_found
  exact ⟨Assembly.arranged_assemble hg (NodeId.nodup_setOf _)
    (selection_files_isKind hg htype chain [field]), rfl⟩

theorem methodImpact_whole (hg : g.WellFormed) {signature className : String} {r : Report}
    (hr : (methodImpact (.unbounded g) signature className).answer = .ok r) : WholeReport r := by
  obtain ⟨method, type, hl⟩ := (methodImpact_isOk hg).mp ⟨r, hr⟩
  obtain ⟨chain, fields, -, -, hanswer⟩ := methodImpact_answer hg hl
  obtain rfl := Except.ok.inj (hanswer.symm.trans hr)
  have htype := hg.isKind_of_find? hl.type_found
  exact ⟨Assembly.arranged_assemble hg (NodeId.nodup_setOf _)
    (selection_files_isKind hg htype chain fields), rfl⟩

theorem classImpact_whole (hg : g.WellFormed) {className : String} {r : Report}
    (hr : (classImpact (.unbounded g) className).answer = .ok r) : WholeReport r := by
  obtain ⟨hname, type, htype, hrefers⟩ := (classImpact_isOk hg).mp ⟨r, hr⟩
  obtain ⟨chain, fields, typed, -, -, -, hanswer⟩ :=
    ((classImpact_answer hg hname htype).resolve_left fun hunref => hrefers hunref.1).2
  obtain rfl := Except.ok.inj (hanswer.symm.trans hr)
  exact ⟨Assembly.arranged_assemble hg (NodeId.nodup_setOf _)
    (classSelection_files_isKind hg (hg.isKind_of_find? htype) chain fields typed), rfl⟩

theorem WholeReport.eq_of_within {r r' : Report} (h : WholeReport r) (h' : WholeReport r')
    (hwithin : r.Within Eq r') (hwithin' : r'.Within Eq r) : r = r' := by
  have hfiles := h.files.eq_of_within h'.files hwithin.files hwithin'.files
  have htruncated := h.not_truncated.trans h'.not_truncated.symm
  have htarget := hwithin.target_eq
  cases r
  cases r'
  simp_all

/-- Something refers to a class in both graphs or in none. -/
theorem unreferenced_of_renumbered (h : g.Renumbered φ g') {className : String}
    (hname : className ≠ "") {type : NodeId} (htype : g.IsKind .type type)
    (hunref : Unreferenced g' className (φ type)) : Unreferenced g className type where
  not_called m hm := by
    have hown : ∀ t, g.Linked .contains type t → g'.Linked .contains (φ type) (φ t) :=
      fun t => h.embeds.linked
    have hcalled := hunref.not_called (φ m) (h.embeds.upstream hown hm)
    have hback := h.symm.embeds.linked hcalled
    have hmethod := isKind_of_upstream h.wellFormed hm
    rwa [h.back_apply h.wellFormed htype, h.back_apply h.wellFormed hmethod] at hback
  no_field f hf := hunref.no_field (φ f) (h.embeds.fieldMentions h.wellFormed' hf)
  no_method m hm := hunref.no_method (φ m) (h.embeds.methodMentions h.wellFormed' hname hm)

/-! ## lists -/

/-- Methods are listed under the same paths. -/
theorem pathsOf_subset (h : g.Renumbered φ g') {m : NodeId} (hm : g.IsKind .method m) :
    pathsOf g m ⊆ pathsOf g' (φ m) := by
  have hg := h.wellFormed
  have hg' := h.wellFormed'
  have hnil : ∀ {T}, g.IsKind .type T → g.declaringFiles T = [] → g'.declaringFiles (φ T) = [] := by
    intro T hT hnone
    refine List.eq_nil_iff_forall_not_mem.mpr fun F' hF' => ?_
    have hback := h.symm.embeds.mem_declaringFiles hg' hg hF'
    rw [h.back_apply hg hT, hnone] at hback
    contradiction
  intro path hpath
  rcases mem_pathsOf.mp hpath with ⟨hnone, rfl⟩ | ⟨T, hT, hfile⟩
  · refine mem_pathsOf.mpr (.inl ⟨?_, rfl⟩)
    refine List.eq_nil_iff_forall_not_mem.mpr fun T' hT' => ?_
    have hback := h.symm.embeds.mem_declaringTypes hg' hg hT'
    rw [h.back_apply hg hm, hnone] at hback
    contradiction
  · refine mem_pathsOf.mpr (.inr ⟨φ T, h.embeds.mem_declaringTypes hg hg' hT, ?_⟩)
    have htype := hg.isKind_of_mem_declaringTypes hT
    rcases hfile with ⟨hnone, rfl⟩ | ⟨F, hF, rfl⟩
    · refine .inl ⟨hnil htype hnone, ?_⟩
      obtain ⟨n, hn, -⟩ := htype
      obtain ⟨n', hn', halike⟩ := h.node T n hn
      simp [hn, hn', halike.path_eq]
    · have hfile := hg.isKind_of_contains_type (hg.mem_declaringFiles.mp hF) htype
      exact .inr ⟨φ F, h.embeds.mem_declaringFiles hg hg' hF, (h.embeds.keyOf hfile).symm⟩

theorem MapsList.subset (h : g.Renumbered φ g') {l l' : MethodList} (hl : MapsList φ g g' l l') :
    l.methods ⊆ l'.methods := by
  obtain ⟨found, found', ⟨-, hmethods, rfl⟩, ⟨-, hmethods', rfl⟩, hmaps⟩ := hl
  intro e he
  obtain ⟨m, hm, path, hpath, rfl⟩ := (mem_describe hmethods).mp he
  refine (mem_describe hmethods').mpr
    ⟨φ m, hmaps m hm, path, pathsOf_subset h (hmethods m hm) hpath, ?_⟩
  rw [h.embeds.nameOf (hmethods m hm), h.embeds.keyOf (hmethods m hm)]

theorem MapsList.antisymm (h : g.Renumbered φ g') {l l' : MethodList} (hl : MapsList φ g g' l l')
    (hl' : MapsList (g.back g') g' g l' l) : l = l' := by
  have hsubset := hl.subset h
  have hsubset' := hl'.subset h.symm
  obtain ⟨found, found', ⟨hnodup, hmethods, rfl⟩, ⟨hnodup', hmethods', rfl⟩, -⟩ := hl
  have harranged := arranged_describe h.wellFormed hnodup hmethods
  have harranged' := arranged_describe h.wellFormed' hnodup' hmethods'
  rw [harranged.ext harranged' hsubset hsubset']

/-! ## answers -/

/-- Two graphs give the same result when each result of the one goes over to the other, results that
go over both ways are equal, and failures agree. -/
theorem eq_of_renumbered {F : Graph → Except Failure α}
    {R : (NodeId → NodeId) → Graph → Graph → α → α → Prop} (h : g.Renumbered φ g')
    (hover : ∀ {φ g g'}, g.Renumbered φ g' → ∀ {a}, F g = .ok a →
      ∃ a', F g' = .ok a' ∧ R φ g g' a a')
    (hanti : ∀ {a a'}, F g = .ok a → F g' = .ok a' → R φ g g' a a' →
      R (g.back g') g' g a' a → a = a')
    (herror : ∀ {e e'}, F g = .error e → F g' = .error e' → e = e') : F g = F g' := by
  cases ha : F g with
  | ok a =>
      obtain ⟨a', ha', hR⟩ := hover h ha
      obtain ⟨a'', ha'', hR'⟩ := hover h.symm ha'
      obtain rfl := Except.ok.inj (ha''.symm.trans ha)
      rw [ha', hanti ha ha' hR hR']
  | error e =>
      cases ha' : F g' with
      | error e' => rw [herror ha ha']
      | ok a' =>
          obtain ⟨a, hok, -⟩ := hover h.symm ha'
          cases hok.symm.trans ha

theorem fieldImpact_renumbered (h : g.Renumbered φ g') (fieldName className : String) :
    (fieldImpact (.unbounded g) fieldName className).answer =
      (fieldImpact (.unbounded g') fieldName className).answer := by
  refine eq_of_renumbered (F := fun g => (fieldImpact (.unbounded g) fieldName className).answer)
    (R := fun _ _ _ => Report.Within Eq) h ?_ ?_ ?_
  · intro φ g g' h r hr
    exact fieldImpact_within h.carries h.wellFormed h.wellFormed' hr
  · intro r r' hr hr'
    exact (fieldImpact_whole h.wellFormed hr).eq_of_within (fieldImpact_whole h.wellFormed' hr')
  · intro e e' he he'
    rw [fieldImpact_error h.wellFormed he, fieldImpact_error h.wellFormed' he', h.find?_isSome]

theorem methodImpact_renumbered (h : g.Renumbered φ g') (signature className : String) :
    (methodImpact (.unbounded g) signature className).answer =
      (methodImpact (.unbounded g') signature className).answer := by
  refine eq_of_renumbered (F := fun g => (methodImpact (.unbounded g) signature className).answer)
    (R := fun _ _ _ => Report.Within Eq) h ?_ ?_ ?_
  · intro φ g g' h r hr
    exact methodImpact_within h.carries h.wellFormed h.wellFormed' hr
  · intro r r' hr hr'
    exact (methodImpact_whole h.wellFormed hr).eq_of_within (methodImpact_whole h.wellFormed' hr')
  · intro e e' he he'
    rw [methodImpact_error h.wellFormed he, methodImpact_error h.wellFormed' he', h.find?_isSome]

theorem classImpact_renumbered (h : g.Renumbered φ g') (className : String) :
    (classImpact (.unbounded g) className).answer =
      (classImpact (.unbounded g') className).answer := by
  refine eq_of_renumbered (F := fun g => (classImpact (.unbounded g) className).answer)
    (R := fun _ _ _ => Report.Within Eq) h ?_ ?_ ?_
  · intro φ g g' h r hr
    obtain ⟨hname, type, htype, hrefers⟩ := (classImpact_isOk h.wellFormed).mp ⟨r, hr⟩
    have htype' := h.embeds.find? h.wellFormed h.wellFormed' htype
    have hrefers' := mt (unreferenced_of_renumbered h (ne_empty_of_not_blank hname)
      (h.wellFormed.isKind_of_find? htype)) hrefers
    obtain ⟨r', hr'⟩ := (classImpact_isOk h.wellFormed').mpr ⟨hname, _, htype', hrefers'⟩
    exact ⟨r', hr', classImpact_within h.carries h.wellFormed h.wellFormed' hr hr'⟩
  · intro r r' hr hr'
    exact (classImpact_whole h.wellFormed hr).eq_of_within (classImpact_whole h.wellFormed' hr')
  · intro e e' he he'
    exact (classImpact_error h.wellFormed he).unique h.known_iff
      (classImpact_error h.wellFormed' he')

theorem fieldAccess_renumbered (h : g.Renumbered φ g') {kind : EdgeKind}
    (hkind : kind = .reads ∨ kind = .writes) (what fieldName : String) :
    (fieldAccess (.unbounded g) kind what fieldName).answer =
      (fieldAccess (.unbounded g') kind what fieldName).answer := by
  refine eq_of_renumbered (F := fun g => (fieldAccess (.unbounded g) kind what fieldName).answer)
    (R := MapsList) h ?_ (fun _ _ => MapsList.antisymm h) ?_
  · intro φ g g' h l hl
    exact fieldAccess_lists h.embeds h.wellFormed h.wellFormed' hkind hl
  · intro e e' he he'
    exact (fieldAccess_error he).unique h.known_iff (fieldAccess_error he')

theorem upstreamCallers_renumbered (h : g.Renumbered φ g') (methodName : String) :
    (upstreamCallers (.unbounded g) methodName).answer =
      (upstreamCallers (.unbounded g') methodName).answer := by
  refine eq_of_renumbered (F := fun g => (upstreamCallers (.unbounded g) methodName).answer)
    (R := MapsList) h ?_ (fun _ _ => MapsList.antisymm h) ?_
  · intro φ g g' h l hl
    exact upstreamCallers_lists h.embeds h.wellFormed h.wellFormed' hl
  · intro e e' he he'
    refine (upstreamCallers_error h.wellFormed he).unique ?_
      (upstreamCallers_error h.wellFormed' he')
    refine and_congr_right fun _ => ⟨?_, ?_⟩
    · exact methodsNamed_ne_nil h.embeds h.wellFormed h.wellFormed'
    · exact methodsNamed_ne_nil h.symm.embeds h.wellFormed' h.wellFormed

theorem downstreamCallees_renumbered (h : g.Renumbered φ g') (signature : String) :
    (downstreamCallees (.unbounded g) signature).answer =
      (downstreamCallees (.unbounded g') signature).answer := by
  refine eq_of_renumbered (F := fun g => (downstreamCallees (.unbounded g) signature).answer)
    (R := MapsList) h ?_ (fun _ _ => MapsList.antisymm h) ?_
  · intro φ g g' h l hl
    exact downstreamCallees_lists h.embeds h.wellFormed h.wellFormed' hl
  · intro e e' he he'
    exact (downstreamCallees_error h.wellFormed he).unique h.known_iff
      (downstreamCallees_error h.wellFormed' he')

/-- **Answers do not depend on the order of arrival**: two graphs with the same nodes and the same
edges, whatever their numbers and their order, give the same answer to every question. -/
theorem ask_renumbered (hg : g.Built) (hg' : g'.Built) (h : g.Corresponds φ g')
    (honce : g.DeclaresOnce) (q : Question) : ask (.unbounded g) q = ask (.unbounded g') q := by
  have hback := (h.symm hg.wellFormed).embeds
  have hre : g.Renumbered φ g' :=
    ⟨h, hg.wellFormed, hg'.wellFormed, honce, .of_embeds hback honce⟩
  cases q with
  | field fieldName className =>
      exact congrArg (Answer.report <$> ·) (fieldImpact_renumbered hre fieldName className)
  | method signature className =>
      exact congrArg (Answer.report <$> ·) (methodImpact_renumbered hre signature className)
  | «class» className =>
      exact congrArg (Answer.report <$> ·) (classImpact_renumbered hre className)
  | writers fieldName =>
      exact congrArg (Answer.methods <$> ·) (fieldAccess_renumbered hre (.inr rfl) _ fieldName)
  | readers fieldName =>
      exact congrArg (Answer.methods <$> ·) (fieldAccess_renumbered hre (.inl rfl) _ fieldName)
  | upstream methodName =>
      exact congrArg (Answer.methods <$> ·) (upstreamCallers_renumbered hre methodName)
  | downstream signature =>
      exact congrArg (Answer.methods <$> ·) (downstreamCallees_renumbered hre signature)

end Query

/-! ## facts from the top and from the bottom -/

/-- Correspondence of graphs whose nodes and edges are given as lists. -/
theorem Graph.corresponds_of_lists {φ : NodeId → NodeId} {g g' : Graph} (hg : g.WellFormed)
    (hg' : g'.WellFormed)
    (hnodes : ∀ n ∈ g.nodes.toList, ∃ n' ∈ g'.nodes.toList,
      φ n.id = n'.id ∧ n.symbol.Alike n'.symbol)
    (hnodes' : ∀ n' ∈ g'.nodes.toList, ∃ n ∈ g.nodes.toList, φ n.id = n'.id)
    (hedges : (g'.edges.toList.map Edge.key).Perm
      ((g.edges.toList.map Edge.key).map fun k => ⟨k.kind, φ k.source, φ k.target, k.line⟩)) :
    Corresponds φ g g' where
  node id n hn := by
    obtain ⟨hmem, rfl⟩ := hg.node?_iff.mp hn
    obtain ⟨n', hmem', hid, halike⟩ := hnodes n (Array.mem_toList_iff.mpr hmem)
    exact ⟨n', hg'.node?_iff.mpr ⟨Array.mem_toList_iff.mp hmem', hid.symm⟩, halike⟩
  node_onto id' n' hn' := by
    obtain ⟨hmem', rfl⟩ := hg'.node?_iff.mp hn'
    obtain ⟨n, hmem, hid⟩ := hnodes' n' (Array.mem_toList_iff.mpr hmem')
    exact ⟨n.id, n, hg.node?_iff.mpr ⟨Array.mem_toList_iff.mp hmem, rfl⟩, hid⟩
  link kind a b line hlink :=
    linkedAt_iff_key.mpr (hedges.mem_iff.mpr (List.mem_map_of_mem (linkedAt_iff_key.mp hlink)))
  link_onto kind a' b' line hlink := by
    obtain ⟨⟨kind, a, b, line⟩, hk, heq⟩ :=
      List.mem_map.mp (hedges.mem_iff.mp (linkedAt_iff_key.mp hlink))
    cases heq
    exact ⟨a, b, linkedAt_iff_key.mpr hk, rfl, rfl⟩

namespace Query

/-- A file with a class that has a field of two types, a getter and a caller of it. -/
def topDownFacts : List Operation :=
  [.fact (.file "A.java" "/A.java"), .fact (.type "A" ""), .fact (.field "x"),
    .fact (.fieldType 3 "int"), .fact (.fieldType 3 "Integer"), .fact (.method "get()"),
    .fact (.method "run()"), .fact (.link .contains 1 2 1), .fact (.link .hasField 2 3 2),
    .fact (.link .contains 2 4 3), .fact (.link .contains 2 5 4), .fact (.link .reads 4 3 3),
    .fact (.link .calls 5 4 4)]

/-- The same facts from the last to the first, as far as references allow. -/
def bottomUpFacts : List Operation :=
  [.fact (.method "run()"), .fact (.method "get()"), .fact (.field "x"),
    .fact (.fieldType 3 "Integer"), .fact (.fieldType 3 "int"), .fact (.type "A" ""),
    .fact (.file "A.java" "/A.java"), .fact (.link .calls 1 2 4), .fact (.link .reads 2 3 3),
    .fact (.link .contains 4 1 4), .fact (.link .contains 4 2 3), .fact (.link .hasField 4 3 2),
    .fact (.link .contains 5 4 1)]

/-- The graph of the facts in the one order. -/
def topDown : Graph := (Builder.after topDownFacts (Builder.new 0)).graph

/-- The graph of the facts in the other order. -/
def bottomUp : Graph := (Builder.after bottomUpFacts (Builder.new 0)).graph

section
open Ripple.Graph Builder

theorem topDown_eq :
    topDown.nodes.toList = [⟨1, .file "A.java" "/A.java"⟩, ⟨2, .type "A" ""⟩,
      ⟨3, .field "x" ["int", "Integer"]⟩, ⟨4, .method "get()" "" []⟩, ⟨5, .method "run()" "" []⟩] ∧
    topDown.edges.toList.map Edge.key = [⟨.contains, 1, 2, 1⟩, ⟨.hasField, 2, 3, 2⟩,
      ⟨.contains, 2, 4, 3⟩, ⟨.contains, 2, 5, 4⟩, ⟨.reads, 4, 3, 3⟩, ⟨.calls, 5, 4, 4⟩] := by
  simp [topDown, topDownFacts, after, Operation.perform, ingest, run_map, upsertFile, upsertType,
    upsertField, upsertMethod, setFieldType, run_bind, run_modify, upsert_run_of_new, expect_run,
    link_run, Builder.new, node?_insertNode, find?_insertNode, node?_update, Text.isBlank,
    Symbol.key, Symbol.kind, Text.isBlankChar, Node.kind, EdgeKind.joins, withFilePath,
    withFieldType, Edge.key]
  rfl

theorem bottomUp_eq :
    bottomUp.nodes.toList = [⟨1, .method "run()" "" []⟩, ⟨2, .method "get()" "" []⟩,
      ⟨3, .field "x" ["Integer", "int"]⟩, ⟨4, .type "A" ""⟩, ⟨5, .file "A.java" "/A.java"⟩] ∧
    bottomUp.edges.toList.map Edge.key = [⟨.calls, 1, 2, 4⟩, ⟨.reads, 2, 3, 3⟩,
      ⟨.contains, 4, 1, 4⟩, ⟨.contains, 4, 2, 3⟩, ⟨.hasField, 4, 3, 2⟩, ⟨.contains, 5, 4, 1⟩] := by
  simp [bottomUp, bottomUpFacts, after, Operation.perform, ingest, run_map, upsertFile, upsertType,
    upsertField, upsertMethod, setFieldType, run_bind, run_modify, upsert_run_of_new, expect_run,
    link_run, Builder.new, node?_insertNode, find?_insertNode, node?_update, Text.isBlank,
    Symbol.key, Symbol.kind, Text.isBlankChar, Node.kind, EdgeKind.joins, withFilePath,
    withFieldType, Edge.key]
  rfl

end

theorem topDown_built : topDown.Built := ⟨0, topDownFacts, rfl⟩

theorem bottomUp_built : bottomUp.Built := ⟨0, bottomUpFacts, rfl⟩

theorem topDown_corresponds : topDown.Corresponds (6 - ·) bottomUp := by
  obtain ⟨hnodes, hedges⟩ := topDown_eq
  obtain ⟨hnodes', hedges'⟩ := bottomUp_eq
  have htypes : (Symbol.field "x" ["int", "Integer"]).Alike (.field "x" ["Integer", "int"]) :=
    .field "x" (by simp [or_comm])
  refine Graph.corresponds_of_lists topDown_built.wellFormed bottomUp_built.wellFormed ?_ ?_ ?_
  · simp [hnodes, hnodes', htypes, Symbol.Alike.same]
  · simp [hnodes, hnodes']
  · rw [hedges, hedges']
    decide

theorem topDown_declaresOnce : topDown.DeclaresOnce := by
  intro F T line line' hF hline hline'
  rw [Graph.linkedAt_iff_key, topDown_eq.2] at hline hline'
  simp only [List.mem_cons, EdgeKey.mk.injEq, List.not_mem_nil] at hline hline'
  grind

/-- The two orders of arrival give one report on the field. -/
theorem topDown_renumbered :
    topDown.Built ∧ bottomUp.Built ∧ topDown.Corresponds (6 - ·) bottomUp ∧
      topDown.DeclaresOnce ∧ ∃ a, ask (.unbounded topDown) (.field "x" "A") = .ok a ∧
        ask (.unbounded bottomUp) (.field "x" "A") = .ok a := by
  have hw := topDown_built.wellFormed
  obtain ⟨hnodes, hedges⟩ := topDown_eq
  have hnode : ∀ n ∈ topDown.nodes.toList, topDown.find? n.kind n.key = some n.id := fun n hn =>
    (hw.find?_iff _ _ _).mpr ⟨n, hw.node?_iff.mpr ⟨Array.mem_toList_iff.mp hn, rfl⟩, rfl, rfl⟩
  simp only [hnodes, List.forall_mem_cons] at hnode
  obtain ⟨-, htype, hfield, -⟩ := hnode
  have hlink : topDown.Linked .hasField 2 3 := ⟨2, Graph.linkedAt_iff_key.mpr (by simp [hedges])⟩
  have hlocated := (exists_located_iff hw hw.mem_declaringTypes_field).mpr
    ⟨by decide, by decide, 3, 2, hfield, htype, hlink⟩
  obtain ⟨r, hr⟩ := (fieldImpact_isOk hw).mpr hlocated
  have ha : ask (.unbounded topDown) (.field "x" "A") = .ok (.report r) :=
    congrArg (Answer.report <$> ·) hr
  have hsame := ask_renumbered topDown_built bottomUp_built topDown_corresponds topDown_declaresOnce
    (.field "x" "A")
  exact ⟨topDown_built, bottomUp_built, topDown_corresponds, topDown_declaresOnce, _, ha,
    hsame.symm.trans ha⟩

end Query

end Ripple
