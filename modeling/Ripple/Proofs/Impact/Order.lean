import Mathlib.Data.String.Basic
import Mathlib.Data.Prod.Lex
import Ripple.Proofs.Arranged
import Ripple.Proofs.Impact.Containment

/-!
# Ripple.Proofs.Impact.Order

Answers are determined by what they list.

Every list of an answer is in strictly increasing order of a key: files by path, types by line and
name, members and calls by line and signature, fields by line and name, and the entries of a flat
list by signature and path (`Arranged`).  So two lists of files whose entries are within each other
are the same list (`FilesArranged.eq_of_within`).
-/

namespace Ripple

open Std

/-! ## reports -/

theorem lineThenText_iff {a b : Int × String} : lineThenText a b = true ↔ toLex a ≤ toLex b := by
  simp [lineThenText, Prod.Lex.toLex_le_toLex]

/-- The order of references to fields. -/
def FieldRef.key (x : FieldRef) : Int ×ₗ String := toLex (x.line, x.name)

/-- The order of calls. -/
def CallRef.key (c : CallRef) : Int ×ₗ String := toLex (c.line, c.signature)

/-- The order of members. -/
def MemberEntry.key (e : MemberEntry) : Int ×ₗ String := toLex (e.line, e.signature)

/-- The order of types. -/
def TypeEntry.key (t : TypeEntry) : Int ×ₗ String := toLex (t.line, t.name)

structure MemberEntry.Arranged (e : MemberEntry) : Prop where
  calls : Ripple.Arranged CallRef.key e.calls
  reads : Ripple.Arranged FieldRef.key e.reads
  writes : Ripple.Arranged FieldRef.key e.writes

structure TypeEntry.Arranged (t : TypeEntry) : Prop where
  fields : Ripple.Arranged FieldRef.key t.fields
  members : Ripple.Arranged MemberEntry.key t.members
  each : ∀ e ∈ t.members, e.Arranged

structure FileEntry.Arranged (f : FileEntry) : Prop where
  types : Ripple.Arranged TypeEntry.key f.types
  each : ∀ t ∈ f.types, t.Arranged

/-- Files are in order of their paths, and so are all lists in them in their orders. -/
structure FilesArranged (files : List FileEntry) : Prop where
  paths : Ripple.Arranged FileEntry.path files
  each : ∀ f ∈ files, f.Arranged

theorem MemberEntry.Within.antisymm {e e' : MemberEntry} (h : e.Within Eq e') (h' : e'.Within Eq e)
    (he : e.Arranged) (he' : e'.Arranged) : e = e' := by
  have hcalls := he.calls.ext he'.calls h.calls h'.calls
  have hreads := he.reads.ext he'.reads h.reads h'.reads
  have hwrites := he.writes.ext he'.writes h.writes h'.writes
  obtain ⟨name, signature, line, -, -, -⟩ := h
  cases e
  cases e'
  simp_all

theorem TypeEntry.Within.antisymm {t t' : TypeEntry} (h : t.Within Eq t') (h' : t'.Within Eq t)
    (ht : t.Arranged) (ht' : t'.Arranged) : t = t' := by
  have hfields := ht.fields.ext ht'.fields h.fields h'.fields
  have hmembers : t.members = t'.members := by
    refine ht.members.eq_of_within ht'.members ?_ ?_ h.members h'.members
    · intro e e' hwithin
      rw [MemberEntry.key, MemberEntry.key, hwithin.signature_eq, hwithin.line]
    · intro e he e' he' hwithin hwithin'
      exact hwithin.antisymm hwithin' (ht.each e he) (ht'.each e' he')
  obtain ⟨name, line, -, -⟩ := h
  cases t
  cases t'
  simp_all

theorem FileEntry.Within.antisymm {f f' : FileEntry} (h : f.Within Eq f') (h' : f'.Within Eq f)
    (hf : f.Arranged) (hf' : f'.Arranged) : f = f' := by
  have htypes : f.types = f'.types := by
    refine hf.types.eq_of_within hf'.types ?_ ?_ h.types h'.types
    · intro t t' hwithin
      rw [TypeEntry.key, TypeEntry.key, hwithin.name_eq, hwithin.line_eq]
    · intro t ht t' ht' hwithin hwithin'
      exact hwithin.antisymm hwithin' (hf.each t ht) (hf'.each t' ht')
  obtain ⟨name, path, -⟩ := h
  cases f
  cases f'
  simp_all

/-- **Reports are determined by what they list.** -/
theorem FilesArranged.eq_of_within {files files' : List FileEntry} (h : FilesArranged files)
    (h' : FilesArranged files') (hwithin : FilesWithin Eq files files')
    (hwithin' : FilesWithin Eq files' files) : files = files' := by
  refine h.paths.eq_of_within h'.paths ?_ ?_ hwithin hwithin'
  · exact fun f f' hf => hf.path_eq
  · exact fun f hf f' hf' hle hle' => hle.antisymm hle' (h.each f hf) (h'.each f' hf')

namespace Assembly

variable {g : Graph}

theorem arranged_fieldRefs (fields : HashSet NodeId) (edges : List Edge) :
    Arranged FieldRef.key (fieldRefs g fields edges) := by
  refine Arranged.mergeSort (fun a b => lineThenText_iff) ((nodup_eraseDups _).map ?_)
  intro x y hxy
  obtain ⟨hline, hname⟩ := Prod.mk.inj (toLex.injective hxy)
  cases x
  cases y
  exact FieldRef.mk.injEq .. ▸ ⟨hname, hline⟩

theorem arranged_callRefs (hg : g.WellFormed) (chain : HashSet NodeId) (method : NodeId) :
    Arranged CallRef.key (callRefs g chain method) := by
  refine Arranged.mergeSort (fun a b => lineThenText_iff) ?_
  -- signature and line are distinct after sorting, so they were before
  have hnodup := ((List.mergeSort_perm _ _).map _).nodup_iff.mp (nodup_callRefs hg chain method)
  refine List.Nodup.of_map (fun k => ((ofLex k).2, (ofLex k).1)) ?_
  rw [List.map_map]
  exact hnodup

theorem arranged_member (hg : g.WellFormed) (sel : Selection) (method : NodeId) (line : Int) :
    (member g sel method line).Arranged where
  calls := arranged_callRefs hg sel.chain method
  reads := arranged_fieldRefs sel.fields _
  writes := arranged_fieldRefs sel.fields _

theorem arranged_members (hg : g.WellFormed) (sel : Selection) {type : NodeId}
    (htype : g.IsKind .type type) : Arranged MemberEntry.key (members g sel type) := by
  refine Arranged.mergeSort (fun a b => lineThenText_iff) ?_
  have hnodup := ((List.mergeSort_perm _ _).map _).nodup_iff.mp (nodup_members hg sel htype)
  refine List.Nodup.of_map (fun k => (ofLex k).2) ?_
  rw [List.map_map]
  exact hnodup

theorem arranged_typeEntry? (hg : g.WellFormed) {sel : Selection} {type : NodeId}
    (htype : g.IsKind .type type) {line : Int} {t : TypeEntry}
    (ht : typeEntry? g sel type line = some t) : t.Arranged := by
  obtain ⟨-, rfl⟩ := type_listed_iff.mp ht
  refine ⟨arranged_fieldRefs sel.fields _, arranged_members hg sel htype, ?_⟩
  intro e he
  obtain ⟨method, line, -, -, rfl⟩ := (mem_members hg).mp he
  exact arranged_member hg sel method line

theorem arranged_fileEntry? (hg : g.WellFormed) {sel : Selection} {file : NodeId}
    (hfile : g.IsKind .file file) {f : FileEntry} (hf : fileEntry? g sel file = some f) :
    f.Arranged := by
  obtain ⟨-, rfl⟩ := file_listed_iff.mp hf
  constructor
  · refine Arranged.mergeSort (fun a b => lineThenText_iff) ?_
    refine List.Nodup.of_map (fun k => (ofLex k).2) ?_
    rw [List.map_map]
    exact nodup_listedTypes hg sel hfile
  · intro t ht
    obtain ⟨T, line, hlink, hentry⟩ := mem_listedTypes hg (List.mem_mergeSort.mp ht)
    exact arranged_typeEntry? hg (hg.isKind_of_contains_file hlink hfile) hentry

/-- All lists of a report are in their orders. -/
theorem arranged_assemble (hg : g.WellFormed) {sel : Selection} (hnodup : sel.files.Nodup)
    (hfiles : ∀ F ∈ sel.files, g.IsKind .file F) : FilesArranged (assemble g sel) where
  paths := by
    refine Arranged.mergeSort (fun a b => decide_eq_true_iff) (nodup_map_filterMap (keyOf g) ?_ ?_)
    · intro file _ f hf
      rw [← (file_listed_iff.mp hf).2]
    · exact nodup_map_keyOf hg .file hnodup hfiles
  each f hf := by
    obtain ⟨file, hfile, hentry⟩ := mem_assemble.mp hf
    exact arranged_fileEntry? hg (hfiles file hfile) hentry

end Assembly

/-! ## flat lists -/

/-- The order of a flat list. -/
def MethodEntry.key (e : MethodEntry) : String ×ₗ String := toLex (e.signature, e.filePath)

namespace Query

variable {g : Graph}

theorem mem_pathsOf {method : NodeId} {path : String} :
    path ∈ pathsOf g method ↔ (g.declaringTypes method = [] ∧ path = "") ∨
      ∃ type ∈ g.declaringTypes method,
        (g.declaringFiles type = [] ∧ path = ((g.node? type).map (·.symbol.path)).getD "") ∨
          ∃ file ∈ g.declaringFiles type, path = Assembly.keyOf g file := by
  unfold pathsOf
  cases g.declaringTypes method with
  | nil => simp
  | cons type types =>
      simp only [List.mem_eraseDups, List.mem_flatMap, reduceCtorEq, false_and, false_or]
      refine exists_congr fun type => and_congr_right fun _ => ?_
      cases g.declaringFiles type with
      | nil => simp
      | cons file files => simp [eq_comm]

theorem nodup_pathsOf (g : Graph) (method : NodeId) : (pathsOf g method).Nodup := by
  unfold pathsOf
  split
  · exact List.nodup_singleton ""
  · exact nodup_eraseDups _

/-- No method is left out for want of a path. -/
theorem exists_mem_pathsOf (g : Graph) (method : NodeId) : ∃ path, path ∈ pathsOf g method := by
  cases htypes : g.declaringTypes method with
  | nil => exact ⟨"", mem_pathsOf.mpr (.inl ⟨htypes, rfl⟩)⟩
  | cons type types =>
      have htype : type ∈ g.declaringTypes method := htypes ▸ List.mem_cons_self
      cases hfiles : g.declaringFiles type with
      | nil => exact ⟨_, mem_pathsOf.mpr (.inr ⟨type, htype, .inl ⟨hfiles, rfl⟩⟩)⟩
      | cons file files =>
          have hfile : file ∈ g.declaringFiles type := hfiles ▸ List.mem_cons_self
          exact ⟨_, mem_pathsOf.mpr (.inr ⟨type, htype, .inr ⟨file, hfile, rfl⟩⟩)⟩

/-- The entries of some methods, before they are sorted. -/
theorem mem_describe {methods : List NodeId} (hmethods : ∀ m ∈ methods, g.IsKind .method m)
    {e : MethodEntry} :
    e ∈ describe g methods ↔ ∃ m ∈ methods, ∃ path ∈ pathsOf g m,
      e = ⟨Assembly.nameOf g m, Assembly.keyOf g m, path⟩ := by
  simp only [describe, List.mem_mergeSort, List.mem_flatMap]
  refine exists_congr fun m => and_congr_right fun hm => ?_
  obtain ⟨n, hn, -⟩ := hmethods m hm
  simp [hn, Assembly.nameOf_eq hn, Assembly.keyOf_eq hn, eq_comm]

/-- A flat list is in order of signature and path. -/
theorem arranged_describe (hg : g.WellFormed) {methods : List NodeId} (hnodup : methods.Nodup)
    (hmethods : ∀ m ∈ methods, g.IsKind .method m) :
    Arranged MethodEntry.key (describe g methods) := by
  refine Arranged.mergeSort ?_ ?_
  · intro a b
    simp [MethodEntry.key, Prod.Lex.toLex_le_toLex]
  · -- signatures tell the methods apart, and paths the entries of one method
    rw [List.map_flatMap]
    refine nodup_flatMap_of_key (fun k => (ofLex k).1) (Assembly.keyOf g) ?_
      (Assembly.nodup_map_keyOf hg .method hnodup hmethods) ?_
    · intro m hm k hk
      obtain ⟨n, hn, -⟩ := hmethods m hm
      simp only [hn, List.map_map, List.mem_map] at hk
      obtain ⟨path, -, rfl⟩ := hk
      exact (Assembly.keyOf_eq hn).symm
    · intro m hm
      obtain ⟨n, hn, -⟩ := hmethods m hm
      simp only [hn, List.map_map]
      exact (nodup_pathsOf g m).map fun path path' hpath =>
        (Prod.mk.inj (toLex.injective hpath)).2

end Query

end Ripple
