import Ripple.Proofs.Impact.Embedding

/-!
# Ripple.Proofs.Impact.Containment

A larger selection in a larger graph gives a larger report.

Reports are compared level by level (`FileEntry.Within`, `TypeEntry.Within`, `MemberEntry.Within`):
the entries of the one stand in the other under the same names, paths and signatures, with all that
they refer to.  The line of a member is compared by a relation `keeps`, since a method that is
declared again higher up moves there.

When an embedding carries the lines of declarations along (`Graph.Carries`) and maps one selection
into another (`Selection.Maps`), the report on the one is within the report on the other
(`assemble_within`).  The identity on one graph compares two selections, an extension two states of
a graph, and a renumbering two orders of arrival.
-/

namespace Ripple

open Std

/-! ## entries within entries -/

/-- A member is listed with all its references. -/
structure MemberEntry.Within (keeps : Int → Int → Prop) (e e' : MemberEntry) : Prop where
  name_eq : e'.name = e.name
  signature_eq : e'.signature = e.signature
  line : keeps e.line e'.line
  calls : e.calls ⊆ e'.calls
  reads : e.reads ⊆ e'.reads
  writes : e.writes ⊆ e'.writes

/-- A type is listed at the same line with all its fields and members. -/
structure TypeEntry.Within (keeps : Int → Int → Prop) (t t' : TypeEntry) : Prop where
  name_eq : t'.name = t.name
  line_eq : t'.line = t.line
  fields : t.fields ⊆ t'.fields
  members : ∀ e ∈ t.members, ∃ e' ∈ t'.members, e.Within keeps e'

/-- A file is listed with all its types. -/
structure FileEntry.Within (keeps : Int → Int → Prop) (f f' : FileEntry) : Prop where
  name_eq : f'.name = f.name
  path_eq : f'.path = f.path
  types : ∀ t ∈ f.types, ∃ t' ∈ f'.types, t.Within keeps t'

/-- All entries of a list of files stand in another. -/
def FilesWithin (keeps : Int → Int → Prop) (files files' : List FileEntry) : Prop :=
  ∀ f ∈ files, ∃ f' ∈ files', f.Within keeps f'

/-- A report on the same target lists all that another one does. -/
structure Report.Within (keeps : Int → Int → Prop) (r r' : Report) : Prop where
  target_eq : r'.target = r.target
  files : FilesWithin keeps r.files r'.files

/-! ## the first line of a declaration -/

namespace Assembly

/-- The line of the first of the edges that lead to a target. -/
def firstLine? (edges : List Edge) (target : NodeId) : Option Int :=
  (edges.find? (·.target == target)).map (·.line)

theorem mem_firstPerTarget_go {edges : List Edge} {seen : HashSet NodeId} {t : NodeId}
    {line : Int} :
    (t, line) ∈ firstPerTarget.go seen edges ↔ t ∉ seen ∧ firstLine? edges t = some line := by
  induction edges generalizing seen with
  | nil => simp [firstPerTarget.go, firstLine?]
  | cons d edges ih =>
      rw [firstPerTarget.go]
      by_cases hd : d.target = t
      · -- the head decides, unless its target was seen before
        have hfirst : firstLine? (d :: edges) t = some d.line := by simp [firstLine?, hd]
        split
        · next hseen =>
            have hmem : t ∈ seen := HashSet.mem_iff_contains.mpr (hd ▸ hseen)
            simp [ih, hmem]
        · next hseen =>
            have hmem : t ∉ seen := fun h => hseen (HashSet.mem_iff_contains.mp (hd ▸ h))
            simp [ih, hfirst, hmem, hd, eq_comm]
      · have hfirst : firstLine? (d :: edges) t = firstLine? edges t := by simp [firstLine?, hd]
        split
        · rw [ih, hfirst]
        · simp [ih, hfirst, hd, Ne.symm hd]

/-- The types of a file are listed at the line of the first edge. -/
theorem mem_firstPerTarget {edges : List Edge} {t : NodeId} {line : Int} :
    (t, line) ∈ firstPerTarget edges ↔ firstLine? edges t = some line := by
  rw [firstPerTarget, mem_firstPerTarget_go]
  simp

end Assembly

namespace Graph

/-- An embedding that carries the lines of declarations along: the line of a type in a file, and, as
far as `keeps` asks, the smallest line of a method in a type. -/
structure Carries (keeps : Int → Int → Prop) (φ : NodeId → NodeId) (g g' : Graph) : Prop extends
    Embeds φ g g' where
  first : ∀ F T line, g.IsKind .file F →
    Assembly.firstLine? (g.outgoing F .contains) T = some line →
    Assembly.firstLine? (g'.outgoing (φ F) .contains) (φ T) = some line
  least : ∀ T m line, IsLeast {l | g.LinkedAt .contains T m l} line →
    ∃ line', IsLeast {l | g'.LinkedAt .contains (φ T) (φ m) l} line' ∧ keeps line line'

theorem Carries.id (g : Graph) : Carries Eq id g g where
  toEmbeds := .id g
  first _ _ _ _ h := h
  least _ _ line h := ⟨line, h, rfl⟩

end Graph

/-- A map of numbers takes what is selected to what is selected. -/
structure Selection.Maps (φ : NodeId → NodeId) (sel sel' : Selection) : Prop where
  files : ∀ F ∈ sel.files, φ F ∈ sel'.files
  chain : ∀ m ∈ sel.chain, φ m ∈ sel'.chain
  fields : ∀ f ∈ sel.fields, φ f ∈ sel'.fields
  targets : ∀ t ∈ sel.targets, φ t ∈ sel'.targets

/-! ## reports within reports -/

namespace Assembly

variable {keeps : Int → Int → Prop} {φ : NodeId → NodeId} {g g' : Graph} {sel sel' : Selection}

theorem fieldRefs_subset (h : g.Embeds φ g') (hg : g.WellFormed) (hg' : g'.WellFormed)
    {fields fields' : HashSet NodeId} (hfields : ∀ f ∈ fields, φ f ∈ fields') (id : NodeId)
    (kind : EdgeKind) :
    fieldRefs g fields (g.outgoing id kind) ⊆ fieldRefs g' fields' (g'.outgoing (φ id) kind) := by
  intro x hx
  obtain ⟨field, line, hlink, hfield, rfl⟩ := (mem_fieldRefs hg).mp hx
  obtain ⟨-, kb, -, hkind, -⟩ := hg.linked_joins ⟨line, hlink⟩
  refine (mem_fieldRefs hg').mpr ⟨φ field, line, h.link _ _ _ _ hlink, hfields field hfield, ?_⟩
  rw [h.nameOf hkind]

theorem callRefs_subset (h : g.Embeds φ g') (hg : g.WellFormed) (hg' : g'.WellFormed)
    {chain chain' : HashSet NodeId} (hchain : ∀ m ∈ chain, φ m ∈ chain') (method : NodeId) :
    callRefs g chain method ⊆ callRefs g' chain' (φ method) := by
  intro c hc
  obtain ⟨hname, callee, hfind, hlink, hcallee⟩ := (mem_callRefs hg).mp hc
  exact (mem_callRefs hg').mpr ⟨hname, φ callee, h.find? hg hg' hfind, h.link _ _ _ _ hlink,
    hchain callee hcallee⟩

theorem member_within (h : g.Embeds φ g') (hg : g.WellFormed) (hg' : g'.WellFormed)
    (hsel : sel.Maps φ sel') {method : NodeId} (hmethod : g.IsKind .method method)
    {line line' : Int} (hline : keeps line line') :
    (member g sel method line).Within keeps (member g' sel' (φ method) line') where
  name_eq := h.nameOf hmethod
  signature_eq := h.keyOf hmethod
  line := hline
  calls := callRefs_subset h hg hg' hsel.chain method
  reads := fieldRefs_subset h hg hg' hsel.fields method .reads
  writes := fieldRefs_subset h hg hg' hsel.fields method .writes

theorem members_within (h : g.Carries keeps φ g') (hg : g.WellFormed) (hg' : g'.WellFormed)
    (hsel : sel.Maps φ sel') {type : NodeId} (htype : g.IsKind .type type) {e : MemberEntry}
    (he : e ∈ members g sel type) : ∃ e' ∈ members g' sel' (φ type), e.Within keeps e' := by
  obtain ⟨method, line, hchain, hleast, rfl⟩ := (mem_members hg).mp he
  obtain ⟨line', hleast', hline⟩ := h.least type method line hleast
  have hmethod : g.IsKind .method method := by
    obtain ⟨hfile, -⟩ | ⟨-, hmethod⟩ := hg.isKind_of_contains ⟨line, hleast.1⟩
    · exact absurd (htype.unique hfile) (by decide)
    · exact hmethod
  exact ⟨_, (mem_members hg').mpr ⟨φ method, line', hsel.chain method hchain, hleast', rfl⟩,
    member_within h.toEmbeds hg hg' hsel hmethod hline⟩

theorem typeEntry?_within (h : g.Carries keeps φ g') (hg : g.WellFormed) (hg' : g'.WellFormed)
    (hsel : sel.Maps φ sel') {type : NodeId} (htype : g.IsKind .type type) {line : Int}
    {t : TypeEntry} (ht : typeEntry? g sel type line = some t) :
    ∃ t', typeEntry? g' sel' (φ type) line = some t' ∧ t.Within keeps t' := by
  obtain ⟨hlisted, rfl⟩ := type_listed_iff.mp ht
  have hfields := fieldRefs_subset h.toEmbeds hg hg' hsel.fields type .hasField
  refine ⟨_, type_listed_iff.mpr ⟨?_, rfl⟩, h.nameOf htype, rfl, hfields, ?_⟩
  · -- an entry that is empty in the larger report was listed as a target
    intro hnil hnil'
    refine hsel.targets type (hlisted ?_ ?_)
    · exact List.eq_nil_of_subset_nil (hnil ▸ hfields)
    · refine List.eq_nil_iff_forall_not_mem.mpr fun e he => ?_
      obtain ⟨e', he', -⟩ := members_within h hg hg' hsel htype he
      exact absurd he' (hnil' ▸ List.not_mem_nil)
  · exact fun e he => members_within h hg hg' hsel htype he

theorem listedTypes_within (h : g.Carries keeps φ g') (hg : g.WellFormed) (hg' : g'.WellFormed)
    (hsel : sel.Maps φ sel') {file : NodeId} (hfile : g.IsKind .file file) {t : TypeEntry}
    (ht : t ∈ listedTypes g sel file) : ∃ t' ∈ listedTypes g' sel' (φ file), t.Within keeps t' := by
  obtain ⟨⟨type, line⟩, hline, hentry⟩ := List.mem_filterMap.mp ht
  have htype : g.IsKind .type type :=
    hg.isKind_of_contains_file ((exists_mem_firstPerTarget hg).mp ⟨line, hline⟩) hfile
  obtain ⟨t', hentry', hwithin⟩ := typeEntry?_within h hg hg' hsel htype hentry
  have hline' : (φ type, line) ∈ firstPerTarget (g'.outgoing (φ file) .contains) :=
    mem_firstPerTarget.mpr (h.first file type line hfile (mem_firstPerTarget.mp hline))
  exact ⟨t', List.mem_filterMap.mpr ⟨(φ type, line), hline', hentry'⟩, hwithin⟩

/-- **Containment of reports**: what an embedding maps into a selection is listed there. -/
theorem assemble_within (h : g.Carries keeps φ g') (hg : g.WellFormed) (hg' : g'.WellFormed)
    (hsel : sel.Maps φ sel') (hfiles : ∀ F ∈ sel.files, g.IsKind .file F) :
    FilesWithin keeps (assemble g sel) (assemble g' sel') := by
  intro f hf
  obtain ⟨file, hfile, hentry⟩ := mem_assemble.mp hf
  obtain ⟨hlisted, rfl⟩ := file_listed_iff.mp hentry
  have htypes : ∀ t ∈ listedTypes g sel file, ∃ t' ∈ listedTypes g' sel' (φ file),
      t.Within keeps t' := fun t => listedTypes_within h hg hg' hsel (hfiles file hfile)
  have hlisted' : listedTypes g' sel' (φ file) ≠ [] := by
    obtain ⟨t, ht⟩ := List.exists_mem_of_ne_nil _ hlisted
    obtain ⟨t', ht', -⟩ := htypes t ht
    exact List.ne_nil_of_mem ht'
  refine ⟨_, mem_assemble.mpr ⟨φ file, hsel.files file hfile, file_listed_iff.mpr ⟨hlisted', rfl⟩⟩,
    h.nameOf (hfiles file hfile), h.keyOf (hfiles file hfile), ?_⟩
  intro t ht
  obtain ⟨t', ht', hwithin⟩ := htypes t (List.mem_mergeSort.mp ht)
  exact ⟨t', List.mem_mergeSort.mpr ht', hwithin⟩

end Assembly

/-! ## selections of questions -/

namespace Query

variable {φ : NodeId → NodeId} {g g' : Graph}

theorem selection_maps (h : g.Embeds φ g') (hg : g.WellFormed) (hg' : g'.WellFormed)
    (type : NodeId) {chain chain' fields fields' : List NodeId}
    (hchain : ∀ m ∈ chain, φ m ∈ chain') (hfields : ∀ f ∈ fields, φ f ∈ fields') :
    (selection g type chain fields).Maps φ (selection g' (φ type) chain' fields') where
  files F hF := by
    simp only [selection, NodeId.mem_setOf, List.mem_append] at hF ⊢
    exact hF.imp (h.mem_filesOf hg hg' hchain) (h.mem_declaringFiles hg hg')
  chain m hm := mem_selection_chain.mpr (hchain m (mem_selection_chain.mp hm))
  fields f hf := mem_selection_fields.mpr (hfields f (mem_selection_fields.mp hf))
  targets t ht := List.mem_singleton.mpr (congrArg φ (List.mem_singleton.mp ht))

theorem classSelection_maps (h : g.Embeds φ g') (hg : g.WellFormed) (hg' : g'.WellFormed)
    (type : NodeId) {chain chain' fields fields' typed typed' : List NodeId}
    (hchain : ∀ m ∈ chain, φ m ∈ chain') (hfields : ∀ f ∈ fields, φ f ∈ fields')
    (htyped : ∀ f ∈ typed, φ f ∈ typed') :
    (classSelection g type chain fields typed).Maps φ
      (classSelection g' (φ type) chain' fields' typed') where
  files F hF := by
    simp only [classSelection, NodeId.mem_setOf, List.mem_append] at hF ⊢
    exact hF.imp (Or.imp (h.mem_filesOf hg hg' hchain) (h.mem_declaringFiles hg hg'))
      (h.mem_filesOf hg hg' htyped)
  chain m hm := mem_classSelection_chain.mpr (hchain m (mem_classSelection_chain.mp hm))
  fields f hf := mem_classSelection_fields.mpr (hfields f (mem_classSelection_fields.mp hf))
  targets t ht := List.mem_singleton.mpr (congrArg φ (List.mem_singleton.mp ht))

end Query

end Ripple
