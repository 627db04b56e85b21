import Ripple.Proofs.Graph.Closure
import Ripple.Proofs.Impact.Order

/-!
# Ripple.Proofs.Impact.Canonical

Reports are canonical and minimal, for any selection of files, methods, fields and targets.

That all lists of a report are in strict order is `arranged_assemble`, for selected files that the
graph knows; numbers that stand for no node add nothing (`assemble_known`).  What is left is which
types are listed: those that declare something selected, and the targets (`Selection.Shows`).
-/

namespace Ripple

open Std

/-- A type declares a selected field or method, or is a target. -/
def Selection.Shows (sel : Selection) (g : Graph) (T : NodeId) : Prop :=
  (∃ f ∈ sel.fields, g.Linked .hasField T f) ∨ (∃ m ∈ sel.chain, g.Linked .contains T m) ∨
    T ∈ sel.targets

namespace Assembly

variable {g : Graph} {sel : Selection}

/-! ## which types are listed -/

theorem fieldRefs_eq_nil_iff (hg : g.WellFormed) {fields : HashSet NodeId} {id : NodeId}
    {kind : EdgeKind} :
    fieldRefs g fields (g.outgoing id kind) = [] ↔ ∀ f ∈ fields, ¬ g.Linked kind id f := by
  rw [List.eq_nil_iff_forall_not_mem]
  constructor
  · rintro hnone f hf ⟨line, hlink⟩
    exact hnone _ ((mem_fieldRefs hg).mpr ⟨f, line, hlink, hf, rfl⟩)
  · intro hnone x hx
    obtain ⟨f, line, hlink, hf, -⟩ := (mem_fieldRefs hg).mp hx
    exact hnone f hf ⟨line, hlink⟩

theorem members_eq_nil_iff (hg : g.WellFormed) {type : NodeId} :
    members g sel type = [] ↔ ∀ m ∈ sel.chain, ¬ g.Linked .contains type m := by
  rw [List.eq_nil_iff_forall_not_mem]
  constructor
  · intro hnone m hm hlink
    obtain ⟨line, hleast⟩ := exists_isLeast_line hg hlink
    exact hnone _ ((mem_members hg).mpr ⟨m, line, hm, hleast, rfl⟩)
  · intro hnone e he
    obtain ⟨m, line, hm, hleast, -⟩ := (mem_members hg).mp he
    exact hnone m hm ⟨line, hleast.1⟩

/-- The rule by which a type is listed, said with edges. -/
theorem shows_iff (hg : g.WellFormed) {type : NodeId} :
    (fieldRefs g sel.fields (g.outgoing type .hasField) = [] → members g sel type = [] →
      type ∈ sel.targets) ↔ sel.Shows g type := by
  rw [fieldRefs_eq_nil_iff hg, members_eq_nil_iff hg, Selection.Shows]
  constructor
  · intro h
    by_cases hfield : ∃ f ∈ sel.fields, g.Linked .hasField type f
    · exact .inl hfield
    · by_cases hmethod : ∃ m ∈ sel.chain, g.Linked .contains type m
      · exact .inr (.inl hmethod)
      · exact .inr (.inr (h (fun f hf hlink => hfield ⟨f, hf, hlink⟩)
          fun m hm hlink => hmethod ⟨m, hm, hlink⟩))
  · rintro (⟨f, hf, hlink⟩ | ⟨m, hm, hlink⟩ | htarget) hfields hmembers
    · exact absurd hlink (hfields f hf)
    · exact absurd hlink (hmembers m hm)
    · exact htarget

/-! ## which files are listed -/

/-- A file that is listed contains a type, so the graph knows it. -/
theorem exists_linked_of_fileEntry? (hg : g.WellFormed) {file : NodeId} {f : FileEntry}
    (hf : fileEntry? g sel file = some f) : ∃ T, g.Linked .contains file T := by
  obtain ⟨hne, -⟩ := file_listed_iff.mp hf
  obtain ⟨t, ht⟩ := List.exists_mem_of_ne_nil _ hne
  obtain ⟨T, -, hlink, -⟩ := mem_listedTypes hg ht
  exact ⟨T, hlink⟩

theorem fileEntry?_of_unknown (hg : g.WellFormed) {file : NodeId} (h : g.node? file = none) :
    fileEntry? g sel file = none := by
  rw [Option.eq_none_iff_forall_ne_some]
  intro f hf
  obtain ⟨T, hlink⟩ := exists_linked_of_fileEntry? hg hf
  obtain ⟨_, _, ⟨n, hn, -⟩, -⟩ := hg.linked_joins hlink
  exact absurd (h.symm.trans hn) nofun

/-- Numbers that stand for no node add nothing to a report. -/
theorem assemble_known (hg : g.WellFormed) (sel : Selection) :
    assemble g { sel with files := sel.files.filter fun F => (g.node? F).isSome } =
      assemble g sel := by
  unfold assemble
  congr 1
  rw [List.filterMap_filter]
  refine List.filterMap_congr fun F _ => ?_
  cases hF : g.node? F with
  | none => exact (fileEntry?_of_unknown hg hF).symm
  | some n => rfl

end Assembly

section
open Assembly
variable {g : Graph} {sel : Selection}

/-- A report lists a type under a file exactly when the file is selected and contains the type, and
the selection shows the type. -/
theorem listed_assemble_iff (hg : g.WellFormed)
    (hfiles : ∀ F ∈ sel.files, ∀ n, g.node? F = some n → n.kind = .file) {path name : String} :
    (∃ f ∈ assemble g sel, f.path = path ∧ ∃ t ∈ f.types, t.name = name) ↔
      ∃ F ∈ sel.files, ∃ T, g.find? .file path = some F ∧ g.find? .type name = some T ∧
        g.Linked .contains F T ∧ sel.Shows g T := by
  simp only [find?_eq_some_iff hg]
  constructor
  · rintro ⟨f, hf, rfl, t, ht, rfl⟩
    obtain ⟨F, hF, hfile⟩ := mem_assemble.mp hf
    obtain ⟨-, rfl⟩ := file_listed_iff.mp hfile
    obtain ⟨T, line, hlink, htype⟩ := mem_listedTypes hg (List.mem_mergeSort.mp ht)
    obtain ⟨hlisted, rfl⟩ := type_listed_iff.mp htype
    have hkind : g.IsKind .file F := by
      obtain ⟨_, _, ⟨n, hn, -⟩, -⟩ := hg.linked_joins hlink
      exact ⟨n, hn, hfiles F hF n hn⟩
    have hkind' := hg.isKind_of_contains_file hlink hkind
    exact ⟨F, hF, T, ⟨hkind, rfl⟩, ⟨hkind', (nameOf_type hkind').symm⟩, hlink,
      (shows_iff hg).mp hlisted⟩
  · rintro ⟨F, hF, T, ⟨-, rfl⟩, ⟨hkind, rfl⟩, hlink, hshows⟩
    obtain ⟨f, hf, hpath, t, ht, hname, -⟩ :=
      exists_mem_assemble hg hF hlink ((shows_iff hg).mpr hshows)
    exact ⟨f, hf, hpath, t, ht, hname.trans (nameOf_type hkind)⟩

/-- **Reports are canonical and minimal**: for every graph that a builder holds and every set of
files, whatever the selected methods, fields and targets, files are in strict order of path, the
types of a file in strict order of line and name, the members of a type and the calls of a member in
strict order of line and signature, and references to fields in strict order of line and name.  No
file is listed without a type, and a type is listed under a selected file exactly when the file
contains it and it declares a selected field or method or is a target. -/
theorem assemble_canonical (hg : g.Built) (hset : sel.files.Nodup)
    (hfiles : ∀ F ∈ sel.files, ∀ n, g.node? F = some n → n.kind = .file) :
    FilesArranged (assemble g sel) ∧ (∀ f ∈ assemble g sel, f.types ≠ []) ∧
      ∀ path name, (∃ f ∈ assemble g sel, f.path = path ∧ ∃ t ∈ f.types, t.name = name) ↔
        ∃ F ∈ sel.files, ∃ T, g.find? .file path = some F ∧ g.find? .type name = some T ∧
          g.Linked .contains F T ∧
          ((∃ f ∈ sel.fields, g.Linked .hasField T f) ∨
            (∃ m ∈ sel.chain, g.Linked .contains T m) ∨ T ∈ sel.targets) := by
  have hw := hg.wellFormed
  refine ⟨?_, ?_, fun path name => listed_assemble_iff hw hfiles⟩
  · rw [← assemble_known hw]
    refine arranged_assemble hw (hset.filter _) fun F hF => ?_
    obtain ⟨hmem, hsome⟩ := List.mem_filter.mp hF
    obtain ⟨n, hn⟩ := Option.isSome_iff_exists.mp hsome
    exact ⟨n, hn, hfiles F hmem n hn⟩
  · intro f hf
    obtain ⟨F, -, hentry⟩ := mem_assemble.mp hf
    obtain ⟨hne, rfl⟩ := file_listed_iff.mp hentry
    obtain ⟨t, ht⟩ := List.exists_mem_of_ne_nil _ hne
    exact List.ne_nil_of_mem (List.mem_mergeSort.mpr ht)

/-- The file of the getters and a number that stands for nothing, with the field as all that is
selected. -/
def gettersField : Selection := ⟨[1, 99], ∅, HashSet.ofList [3], []⟩

/-- The class is listed for the field, under its file and nowhere else. -/
theorem getters_canonical :
    Graph.getters.Built ∧ gettersField.files.Nodup ∧
      (∀ F ∈ gettersField.files, ∀ n, Graph.getters.node? F = some n → n.kind = .file) ∧
      FilesArranged (assemble Graph.getters gettersField) ∧
      ∀ path, (∃ f ∈ assemble Graph.getters gettersField,
        f.path = path ∧ ∃ t ∈ f.types, t.name = "A") ↔ path = "/A.java" := by
  obtain ⟨hfile, hfield, -⟩ := Graph.getters_linked
  obtain ⟨hpath, htype, -⟩ := Graph.getters_find?
  have hbuilt := Graph.getters_built
  have hunknown : Graph.getters.node? 99 = none := by
    simp [Graph.getters_eq, Graph.node?_insertNode, Graph.node?_update]
  have hset : gettersField.files.Nodup := by decide
  have hfiles : ∀ F ∈ gettersField.files, ∀ n, Graph.getters.node? F = some n →
      n.kind = .file := by
    intro F hF n hn
    rcases List.mem_pair.mp hF with rfl | rfl
    · obtain ⟨n', hn', hkind⟩ := hbuilt.wellFormed.isKind_of_find? hpath
      rwa [Option.some.inj (hn.symm.trans hn')]
    · exact absurd (hunknown.symm.trans hn) nofun
  obtain ⟨harranged, -, hlisted⟩ := assemble_canonical hbuilt hset hfiles
  refine ⟨hbuilt, hset, hfiles, harranged, fun path => (hlisted path "A").trans ?_⟩
  constructor
  · rintro ⟨F, hF, T, hfind, -⟩
    rcases List.mem_pair.mp hF with rfl | rfl
    · exact hbuilt.wellFormed.key_unique hfind hpath
    · obtain ⟨n, hn, -⟩ := hbuilt.wellFormed.isKind_of_find? hfind
      exact absurd (hunknown.symm.trans hn) nofun
  · rintro rfl
    exact ⟨1, by decide, 2, hpath, htype, hfile, .inl ⟨3, by simp [gettersField], hfield⟩⟩

end

end Ripple
