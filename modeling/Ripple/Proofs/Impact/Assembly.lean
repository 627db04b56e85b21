import Ripple.Impact.Assembly
import Ripple.Proofs.Graph.Lookup
import Ripple.Proofs.Lists
import Mathlib.Order.Bounds.Basic

/-!
# Ripple.Proofs.Impact.Assembly

What a report lists, for any selection of files, methods and fields.

A report is a tree of files, types and members.  `membersOf` flattens it, `memberKeys` keeps path,
type name and signature, and the theorems about the two flat lists are

* `mem_membersOf_assemble`: a member stands under a type of a file exactly when the file is selected
  and contains the type, and the type contains the method and the method is selected;
* `mem_memberKeys`: when the files of all declarations are selected, they are no condition;
* `nodup_memberKeys`: no path, type name and signature occur together twice;
* `exists_field_assemble`: a type shows the selected fields that it declares.

Nodes appear in a report by key, so both rest on keys being unique (`keyOf_injective`).
-/

namespace Ripple

open Std

namespace Assembly

variable {g : Graph}

/-! ## names and keys -/

theorem keyOf_eq {id : NodeId} {n : Node} (h : g.node? id = some n) : keyOf g id = n.key := by
  rw [keyOf, h]
  rfl

theorem nameOf_eq {id : NodeId} {n : Node} (h : g.node? id = some n) : nameOf g id = n.name := by
  rw [nameOf, h]
  rfl

theorem nameOf_type {id : NodeId} (h : g.IsKind .type id) : nameOf g id = keyOf g id := by
  obtain ⟨⟨_, symbol⟩, hn, hkind⟩ := h
  rw [nameOf_eq hn, keyOf_eq hn]
  cases symbol <;> first | rfl | contradiction

theorem nameOf_field {id : NodeId} (h : g.IsKind .field id) : nameOf g id = keyOf g id := by
  obtain ⟨⟨_, symbol⟩, hn, hkind⟩ := h
  rw [nameOf_eq hn, keyOf_eq hn]
  cases symbol <;> first | rfl | contradiction

theorem nameOf_method {id : NodeId} (h : g.IsKind .method id) :
    nameOf g id = Signature.simpleName (keyOf g id) := by
  obtain ⟨n, hn, hkind⟩ := h
  obtain ⟨signature, _, _, -, hkey, hname⟩ := Node.eq_method hkind
  rw [nameOf_eq hn, keyOf_eq hn, hname, hkey]

/-- A kind and key lead to the node that shows them. -/
theorem find?_eq_some_iff (hg : g.WellFormed) {kind : NodeKind} {key : String} {id : NodeId} :
    g.find? kind key = some id ↔ g.IsKind kind id ∧ keyOf g id = key := by
  rw [hg.find?_iff]
  constructor
  · rintro ⟨n, hn, hkind, hkey⟩
    exact ⟨⟨n, hn, hkind⟩, (keyOf_eq hn).trans hkey⟩
  · rintro ⟨⟨n, hn, hkind⟩, hkey⟩
    exact ⟨n, hn, hkind, (keyOf_eq hn).symm.trans hkey⟩

/-- Nodes of one kind are told apart by their keys. -/
theorem keyOf_injective (hg : g.WellFormed) {kind : NodeKind} {a b : NodeId} (ha : g.IsKind kind a)
    (hb : g.IsKind kind b) (h : keyOf g a = keyOf g b) : a = b := by
  have hfa := (find?_eq_some_iff hg).mpr ⟨ha, h⟩
  have hfb := (find?_eq_some_iff hg).mpr ⟨hb, rfl⟩
  exact Option.some.inj (hfa.symm.trans hfb)

/-- Distinct nodes of one kind show distinct keys. -/
theorem nodup_map_keyOf (hg : g.WellFormed) (kind : NodeKind) {ids : List NodeId} (hids : ids.Nodup)
    (hkind : ∀ id ∈ ids, g.IsKind kind id) : (ids.map (keyOf g)).Nodup :=
  hids.map_on fun a ha b hb => keyOf_injective hg (hkind a ha) (hkind b hb)

/-! ## references -/

/-- The distinct references made from the edges of a kind that lead from a node into a set. -/
theorem mem_references [BEq α] [LawfulBEq α] (hg : g.WellFormed) {set : HashSet NodeId}
    {id : NodeId} {kind : EdgeKind} (make : NodeId → Int → α) (le : α → α → Bool) {x : α} :
    x ∈ (((g.outgoing id kind).filter fun e => set.contains e.target).map
        fun e => make e.target e.line).eraseDups.mergeSort le ↔
      ∃ target line, g.LinkedAt kind id target line ∧ target ∈ set ∧ x = make target line := by
  rw [List.mem_mergeSort, List.mem_eraseDups, List.mem_map]
  constructor
  · rintro ⟨e, he, rfl⟩
    rw [List.mem_filter, hg.mem_outgoing] at he
    obtain ⟨⟨hmem, rfl, rfl⟩, hset⟩ := he
    exact ⟨e.target, e.line, Graph.linkedAt_of_mem hmem, HashSet.mem_iff_contains.mpr hset, rfl⟩
  · rintro ⟨target, line, ⟨e, hmem, hkind, hsource, rfl, rfl⟩, hset, rfl⟩
    refine ⟨e, ?_, rfl⟩
    rw [List.mem_filter, hg.mem_outgoing]
    exact ⟨⟨hmem, hkind, hsource⟩, HashSet.mem_iff_contains.mp hset⟩

theorem mem_fieldRefs (hg : g.WellFormed) {fields : HashSet NodeId} {id : NodeId} {kind : EdgeKind}
    {x : FieldRef} :
    x ∈ fieldRefs g fields (g.outgoing id kind) ↔
      ∃ field line, g.LinkedAt kind id field line ∧ field ∈ fields ∧ x = ⟨nameOf g field, line⟩ :=
  mem_references hg (fun field line => FieldRef.mk (nameOf g field) line) _

theorem nodup_fieldRefs (fields : HashSet NodeId) (edges : List Edge) :
    (fieldRefs g fields edges).Nodup :=
  (List.mergeSort_perm _ _).nodup_iff.mpr (nodup_eraseDups _)

/-- When one field is selected, the references are the lines of the edges to it. -/
theorem mem_fieldRefs_single (hg : g.WellFormed) {fields : HashSet NodeId} {field : NodeId}
    (hfields : ∀ f, f ∈ fields ↔ f = field) {name : String}
    (hname : g.find? .field name = some field) {id : NodeId} {kind : EdgeKind} {x : FieldRef} :
    x ∈ fieldRefs g fields (g.outgoing id kind) ↔
      x.name = name ∧ g.LinkedAt kind id field x.line := by
  obtain ⟨hkind, rfl⟩ := (find?_eq_some_iff hg).mp hname
  rw [mem_fieldRefs hg]
  constructor
  · rintro ⟨f, line, hlink, hf, rfl⟩
    obtain rfl := (hfields f).mp hf
    exact ⟨nameOf_field hkind, hlink⟩
  · rintro ⟨hx, hlink⟩
    refine ⟨field, x.line, hlink, (hfields field).mpr rfl, ?_⟩
    rw [nameOf_field hkind, ← hx]

theorem nodup_fieldRefs_lines (hg : g.WellFormed) {fields : HashSet NodeId} {field : NodeId}
    (hfields : ∀ f, f ∈ fields ↔ f = field) {name : String}
    (hname : g.find? .field name = some field) (id : NodeId) (kind : EdgeKind) :
    ((fieldRefs g fields (g.outgoing id kind)).map (·.line)).Nodup := by
  refine (nodup_fieldRefs fields _).map_on ?_
  intro x hx y hy hline
  have hnames : x.name = y.name := by
    rw [((mem_fieldRefs_single hg hfields hname).mp hx).1,
      ((mem_fieldRefs_single hg hfields hname).mp hy).1]
  cases x
  cases y
  exact FieldRef.mk.injEq .. ▸ ⟨hnames, hline⟩

/-- The calls of a method are told by the signature of the callee and the line. -/
theorem mem_callRefs (hg : g.WellFormed) {chain : HashSet NodeId} {method : NodeId} {c : CallRef} :
    c ∈ callRefs g chain method ↔ c.name = Signature.simpleName c.signature ∧
      ∃ callee, g.find? .method c.signature = some callee ∧
        g.LinkedAt .calls method callee c.line ∧ callee ∈ chain := by
  refine (mem_references hg (fun callee line => CallRef.mk (nameOf g callee) (keyOf g callee) line)
    _).trans ?_
  constructor
  · rintro ⟨callee, line, hlink, hchain, rfl⟩
    have hmethod := (hg.isKind_of_calls ⟨line, hlink⟩).2
    exact ⟨nameOf_method hmethod, callee, (find?_eq_some_iff hg).mpr ⟨hmethod, rfl⟩, hlink, hchain⟩
  · rintro ⟨hname, callee, hfind, hlink, hchain⟩
    obtain ⟨hmethod, hkey⟩ := (find?_eq_some_iff hg).mp hfind
    refine ⟨callee, c.line, hlink, hchain, ?_⟩
    rw [nameOf_method hmethod, hkey, ← hname]

theorem nodup_callRefs (hg : g.WellFormed) (chain : HashSet NodeId) (method : NodeId) :
    ((callRefs g chain method).map fun c => (c.signature, c.line)).Nodup := by
  have hnodup : (callRefs g chain method).Nodup :=
    (List.mergeSort_perm _ _).nodup_iff.mpr (nodup_eraseDups _)
  refine hnodup.map_on ?_
  intro c hc d hd heq
  obtain ⟨hsignature, hline⟩ := Prod.mk.inj heq
  have hnames : c.name = d.name := by
    rw [((mem_callRefs hg).mp hc).1, ((mem_callRefs hg).mp hd).1, hsignature]
  cases c
  cases d
  exact CallRef.mk.injEq .. ▸ ⟨hnames, hsignature, hline⟩

/-! ## members of a type -/

theorem smallest_isLeast (first : Int) (rest : List Int) :
    IsLeast {l | l ∈ first :: rest} (smallest first rest) := by
  induction rest generalizing first with
  | nil => simp [smallest, IsLeast, lowerBounds]
  | cons l rest ih =>
      obtain ⟨hmem, hle⟩ := ih (min first l)
      rw [smallest, List.foldl_cons, ← smallest]
      constructor
      · cases List.mem_cons.mp hmem with
        | inl heq =>
            rw [heq]
            rcases Int.le_total first l with h | h
            · simp [Int.min_eq_left h]
            · simp [Int.min_eq_right h]
        | inr hrest => simp [hrest]
      · have hmin : smallest (min first l) rest ≤ min first l := hle List.mem_cons_self
        intro x hx
        simp only [Set.mem_ofPred_eq, List.mem_cons] at hx
        rcases hx with rfl | rfl | hrest
        · exact Int.le_trans hmin (Int.min_le_left _ _)
        · exact Int.le_trans hmin (Int.min_le_right _ _)
        · exact hle (List.mem_cons_of_mem _ hrest)

theorem smallest_isLeast_of_iff {P : Int → Prop} {first : Int} {rest : List Int}
    (h : ∀ l, l ∈ first :: rest ↔ P l) : IsLeast {l | P l} (smallest first rest) := by
  have hset : {l | l ∈ first :: rest} = {l | P l} := Set.ext h
  exact hset ▸ smallest_isLeast first rest

/-- Among the lines at which a type declares a method there is a smallest. -/
theorem exists_isLeast_line (hg : g.WellFormed) {type method : NodeId}
    (h : g.Linked .contains type method) :
    ∃ line, IsLeast {l | g.LinkedAt .contains type method l} line := by
  have hlines : ∀ l, l ∈ ((g.outgoing type .contains).filter (·.target == method)).map (·.line) ↔
      g.LinkedAt .contains type method l := by
    intro l
    simp only [← hg.exists_mem_outgoing, List.mem_map, List.mem_filter, beq_iff_eq, and_assoc]
  obtain ⟨l, hl⟩ := h
  cases hcase : ((g.outgoing type .contains).filter (·.target == method)).map (·.line) with
  | nil => exact absurd ((hlines l).mpr hl) (hcase ▸ List.not_mem_nil)
  | cons first rest =>
      rw [hcase] at hlines
      exact ⟨_, smallest_isLeast_of_iff hlines⟩

/-- The lines at which a type declares a selected method. -/
theorem mem_declarationLines (hg : g.WellFormed) (sel : Selection) (type method : NodeId)
    (l : Int) :
    l ∈ (((g.outgoing type .contains).filter fun e => sel.chain.contains e.target).filter
        (·.target == method)).map (·.line) ↔
      method ∈ sel.chain ∧ g.LinkedAt .contains type method l := by
  simp only [List.mem_map, List.mem_filter, beq_iff_eq, ← hg.exists_mem_outgoing,
    HashSet.mem_iff_contains]
  constructor
  · rintro ⟨e, ⟨⟨he, hchain⟩, rfl⟩, rfl⟩
    exact ⟨hchain, e, he, rfl, rfl⟩
  · rintro ⟨hchain, e, he, rfl, rfl⟩
    exact ⟨e, ⟨⟨he, hchain⟩, rfl⟩, rfl⟩

/-- A type lists the selected methods that it declares, each at the smallest line. -/
theorem mem_members (hg : g.WellFormed) {sel : Selection} {type : NodeId} {e : MemberEntry} :
    e ∈ members g sel type ↔ ∃ method line, method ∈ sel.chain ∧
      IsLeast {l | g.LinkedAt .contains type method l} line ∧ e = member g sel method line := by
  have hlines := mem_declarationLines hg sel type
  rw [members, List.mem_mergeSort, List.mem_filterMap]
  constructor
  · rintro ⟨method, -, he⟩
    specialize hlines method
    split at he
    · contradiction
    · next line lines heq =>
        rw [heq] at hlines
        have hchain := ((hlines line).mp List.mem_cons_self).1
        refine ⟨method, _, hchain, smallest_isLeast_of_iff ?_, (Option.some.inj he).symm⟩
        exact fun l => (hlines l).trans (and_iff_right hchain)
  · rintro ⟨method, line, hchain, hleast, rfl⟩
    specialize hlines method
    refine ⟨method, ?_, ?_⟩
    · obtain ⟨e, he, htarget, -⟩ := hg.exists_mem_outgoing.mpr hleast.1
      rw [NodeId.mem_setOf, List.mem_map]
      refine ⟨e, List.mem_filter.mpr ⟨he, ?_⟩, htarget⟩
      rw [htarget]
      exact HashSet.mem_iff_contains.mp hchain
    · split
      · next heq =>
          rw [heq] at hlines
          exact absurd ((hlines line).mpr ⟨hchain, hleast.1⟩) List.not_mem_nil
      · next first lines heq =>
          rw [heq] at hlines
          have hsmallest := smallest_isLeast_of_iff
            fun l => (hlines l).trans (and_iff_right hchain)
          rw [hsmallest.unique hleast]

/-- No signature occurs twice among the members of a type. -/
theorem nodup_members (hg : g.WellFormed) (sel : Selection) {type : NodeId}
    (htype : g.IsKind .type type) : ((members g sel type).map (·.signature)).Nodup := by
  refine ((List.mergeSort_perm _ _).map _).nodup_iff.mpr (nodup_map_filterMap (keyOf g) ?_ ?_)
  · intro method _ e he
    split at he
    · contradiction
    · rw [← Option.some.inj he]
      rfl
  · refine nodup_map_keyOf hg .method (NodeId.nodup_setOf _) ?_
    intro method hmethod
    rw [NodeId.mem_setOf, List.mem_map] at hmethod
    obtain ⟨e, he, rfl⟩ := hmethod
    obtain ⟨hmem, hkind, rfl⟩ := hg.mem_outgoing.mp (List.mem_filter.mp he).1
    have hlink : g.Linked .contains e.source e.target :=
      ⟨e.line, hkind ▸ Graph.linkedAt_of_mem hmem⟩
    obtain ⟨hfile, -⟩ | ⟨-, hmethod⟩ := hg.isKind_of_contains hlink
    · exact absurd (htype.unique hfile) (by decide)
    · exact hmethod

/-! ## types of a file -/

/-- The targets that are not seen yet are taken at their first edge. -/
theorem firstPerTarget_go (edges : List Edge) (seen : HashSet NodeId) :
    ((firstPerTarget.go seen edges).map (·.1)).Nodup ∧
      (∀ t line, (t, line) ∈ firstPerTarget.go seen edges →
        t ∉ seen ∧ ∃ e ∈ edges, e.target = t ∧ e.line = line) ∧
      ∀ e ∈ edges, e.target ∉ seen → ∃ line, (e.target, line) ∈ firstPerTarget.go seen edges := by
  induction edges generalizing seen with
  | nil => simp [firstPerTarget.go]
  | cons d edges ih =>
      rw [firstPerTarget.go]
      split
      · next hseen =>
          obtain ⟨hnodup, hsound, hcomplete⟩ := ih seen
          refine ⟨hnodup, ?_, ?_⟩
          · intro t line ht
            obtain ⟨hnew, e, he, hedge⟩ := hsound t line ht
            exact ⟨hnew, e, List.mem_cons_of_mem d he, hedge⟩
          · intro e he hnew
            cases List.mem_cons.mp he with
            | inl heq => exact absurd (HashSet.mem_iff_contains.mpr (heq ▸ hseen)) hnew
            | inr hmem => exact hcomplete e hmem hnew
      · next hseen =>
          obtain ⟨hnodup, hsound, hcomplete⟩ := ih (seen.insert d.target)
          refine ⟨?_, ?_, ?_⟩
          · rw [List.map_cons, List.nodup_cons]
            refine ⟨?_, hnodup⟩
            intro hmem
            obtain ⟨⟨t, line⟩, ht, rfl⟩ := List.mem_map.mp hmem
            exact (hsound _ line ht).1 HashSet.mem_insert_self
          · intro t line ht
            cases List.mem_cons.mp ht with
            | inl heq =>
                obtain ⟨rfl, rfl⟩ := Prod.mk.inj heq
                refine ⟨fun h => hseen ?_, d, List.mem_cons_self, rfl, rfl⟩
                exact HashSet.mem_iff_contains.mp h
            | inr hmem =>
                obtain ⟨hnew, e, he, hedge⟩ := hsound t line hmem
                refine ⟨fun h => hnew ?_, e, List.mem_cons_of_mem d he, hedge⟩
                exact HashSet.mem_insert.mpr (.inr h)
          · intro e he hnew
            by_cases hd : d.target = e.target
            · exact ⟨d.line, hd ▸ List.mem_cons_self⟩
            · have hmem : e ∈ edges := by
                cases List.mem_cons.mp he with
                | inl heq => exact absurd (congrArg Edge.target heq.symm) hd
                | inr hmem => exact hmem
              obtain ⟨line, hline⟩ := hcomplete e hmem (by simp [HashSet.mem_insert, hd, hnew])
              exact ⟨line, List.mem_cons_of_mem _ hline⟩

/-- The types that a file contains, each once. -/
theorem exists_mem_firstPerTarget (hg : g.WellFormed) {file type : NodeId} :
    (∃ line, (type, line) ∈ firstPerTarget (g.outgoing file .contains)) ↔
      g.Linked .contains file type := by
  obtain ⟨-, hsound, hcomplete⟩ := firstPerTarget_go (g.outgoing file .contains) ∅
  constructor
  · rintro ⟨line, hline⟩
    obtain ⟨-, e, he, htarget, -⟩ := hsound type line hline
    exact ⟨e.line, hg.exists_mem_outgoing.mp ⟨e, he, htarget, rfl⟩⟩
  · rintro ⟨line, hlink⟩
    obtain ⟨e, he, rfl, -⟩ := hg.exists_mem_outgoing.mpr hlink
    exact hcomplete e he HashSet.not_mem_empty

/-- A type is listed when it has an affected field or member, or is a target. -/
theorem type_listed_iff {sel : Selection} {type : NodeId} {line : Int} {t : TypeEntry} :
    typeEntry? g sel type line = some t ↔
      (fieldRefs g sel.fields (g.outgoing type .hasField) = [] → members g sel type = [] →
        type ∈ sel.targets) ∧
      ⟨nameOf g type, line, fieldRefs g sel.fields (g.outgoing type .hasField),
        members g sel type⟩ = t := by
  unfold typeEntry?
  rw [Option.ite_none_left_eq_some, Option.some.injEq]
  simp

/-- The types that are listed under a file. -/
def listedTypes (g : Graph) (sel : Selection) (file : NodeId) : List TypeEntry :=
  (firstPerTarget (g.outgoing file .contains)).filterMap fun (type, line) =>
    typeEntry? g sel type line

theorem mem_listedTypes (hg : g.WellFormed) {sel : Selection} {file : NodeId} {t : TypeEntry}
    (h : t ∈ listedTypes g sel file) :
    ∃ type line, g.Linked .contains file type ∧ typeEntry? g sel type line = some t := by
  obtain ⟨⟨type, line⟩, hline, ht⟩ := List.mem_filterMap.mp h
  exact ⟨type, line, (exists_mem_firstPerTarget hg).mp ⟨line, hline⟩, ht⟩

/-- A type of a file is listed there when it is listed at any line. -/
theorem exists_mem_listedTypes (hg : g.WellFormed) {sel : Selection} {file type : NodeId}
    (hlink : g.Linked .contains file type)
    (hlisted : fieldRefs g sel.fields (g.outgoing type .hasField) = [] → members g sel type = [] →
      type ∈ sel.targets) :
    ∃ t ∈ listedTypes g sel file, t.name = nameOf g type ∧ t.members = members g sel type ∧
      t.fields = fieldRefs g sel.fields (g.outgoing type .hasField) := by
  obtain ⟨line, hline⟩ := (exists_mem_firstPerTarget hg).mpr hlink
  have hentry : typeEntry? g sel type line = some _ := type_listed_iff.mpr ⟨hlisted, rfl⟩
  exact ⟨_, List.mem_filterMap.mpr ⟨(type, line), hline, hentry⟩, rfl, rfl, rfl⟩

/-- No name occurs twice among the types of a file. -/
theorem nodup_listedTypes (hg : g.WellFormed) (sel : Selection) {file : NodeId}
    (hfile : g.IsKind .file file) : ((listedTypes g sel file).map (·.name)).Nodup := by
  have htype : ∀ type line, (type, line) ∈ firstPerTarget (g.outgoing file .contains) →
      g.IsKind .type type := fun type line hline =>
    hg.isKind_of_contains_file ((exists_mem_firstPerTarget hg).mp ⟨line, hline⟩) hfile
  refine nodup_map_filterMap (fun p => keyOf g p.1) ?_ ?_
  · rintro ⟨type, line⟩ hline t ht
    rw [← (type_listed_iff.mp ht).2]
    exact nameOf_type (htype type line hline)
  · have hnodup := (firstPerTarget_go (g.outgoing file .contains) ∅).1
    have hkeys := nodup_map_keyOf hg .type hnodup ?_
    · rwa [List.map_map] at hkeys
    · rintro type hmem
      obtain ⟨⟨type, line⟩, hline, rfl⟩ := List.mem_map.mp hmem
      exact htype type line hline

theorem file_listed_iff {sel : Selection} {file : NodeId} {f : FileEntry} :
    fileEntry? g sel file = some f ↔ listedTypes g sel file ≠ [] ∧
      ⟨nameOf g file, keyOf g file, (listedTypes g sel file).mergeSort
        fun a b => lineThenText (a.line, a.name) (b.line, b.name)⟩ = f := by
  change (if (listedTypes g sel file).isEmpty then none else some _) = some f ↔ _
  rw [Option.ite_none_left_eq_some, Option.some.injEq, List.isEmpty_iff]
  rfl

end Assembly

/-! ## members of a report -/

/-- The members of a report, each with the path of the file and the name of the type above it. -/
def membersOf (files : List FileEntry) : List (String × String × MemberEntry) :=
  files.flatMap fun f => f.types.flatMap fun t => t.members.map fun e => (f.path, t.name, e)

/-- Where the members of a report stand: path, type name and signature. -/
def memberKeys (files : List FileEntry) : List (String × String × String) :=
  (membersOf files).map fun p => (p.1, p.2.1, p.2.2.signature)

theorem mem_membersOf {files : List FileEntry} {path type : String} {e : MemberEntry} :
    (path, type, e) ∈ membersOf files ↔
      ∃ f ∈ files, f.path = path ∧ ∃ t ∈ f.types, t.name = type ∧ e ∈ t.members := by
  simp only [membersOf, List.mem_flatMap, List.mem_map, Prod.mk.injEq]
  constructor
  · rintro ⟨f, hf, t, ht, e, he, rfl, rfl, rfl⟩
    exact ⟨f, hf, rfl, t, ht, rfl, he⟩
  · rintro ⟨f, hf, rfl, t, ht, rfl, he⟩
    exact ⟨f, hf, t, ht, e, he, rfl, rfl, rfl⟩

section
open Assembly
variable {g : Graph}

theorem mem_assemble {sel : Selection} {f : FileEntry} :
    f ∈ assemble g sel ↔ ∃ file ∈ sel.files, fileEntry? g sel file = some f := by
  rw [assemble, List.mem_mergeSort, List.mem_filterMap]

/-- A type of a selected file stands in the report when it is listed. -/
theorem exists_mem_assemble (hg : g.WellFormed) {sel : Selection} {file type : NodeId}
    (hfile : file ∈ sel.files) (hlink : g.Linked .contains file type)
    (hlisted : fieldRefs g sel.fields (g.outgoing type .hasField) = [] → members g sel type = [] →
      type ∈ sel.targets) :
    ∃ f ∈ assemble g sel, f.path = keyOf g file ∧
      ∃ t ∈ f.types, t.name = nameOf g type ∧ t.members = members g sel type ∧
        t.fields = fieldRefs g sel.fields (g.outgoing type .hasField) := by
  obtain ⟨t, ht, hentry⟩ := exists_mem_listedTypes hg hlink hlisted
  have hf := file_listed_iff.mpr ⟨List.ne_nil_of_mem ht, rfl⟩
  exact ⟨_, mem_assemble.mpr ⟨file, hfile, hf⟩, rfl, t, List.mem_mergeSort.mpr ht, hentry⟩

/-- **Fields of a report**: a type of a selected file shows the selected fields that it declares. -/
theorem exists_field_assemble (hg : g.WellFormed) {sel : Selection} {file type field : NodeId}
    {line : Int} (hfile : file ∈ sel.files) (hlink : g.Linked .contains file type)
    (hfield : g.LinkedAt .hasField type field line) (hsel : field ∈ sel.fields) :
    ∃ f ∈ assemble g sel, f.path = keyOf g file ∧
      ∃ t ∈ f.types, t.name = nameOf g type ∧ ⟨nameOf g field, line⟩ ∈ t.fields := by
  have href : ⟨nameOf g field, line⟩ ∈ fieldRefs g sel.fields (g.outgoing type .hasField) :=
    (mem_fieldRefs hg).mpr ⟨field, line, hfield, hsel, rfl⟩
  obtain ⟨f, hf, hpath, t, ht, hname, -, hfields⟩ :=
    exists_mem_assemble hg hfile hlink fun hnil _ => absurd hnil (List.ne_nil_of_mem href)
  exact ⟨f, hf, hpath, t, ht, hname, hfields ▸ href⟩

/-- **Members of a report**: a method stands under a type of a file when the file is selected and
contains the type, the type declares the method, and the method is selected. -/
theorem mem_membersOf_assemble (hg : g.WellFormed) {sel : Selection} {path type : String}
    {e : MemberEntry} :
    (path, type, e) ∈ membersOf (assemble g sel) ↔
      ∃ F ∈ sel.files, ∃ T m line, g.Linked .contains F T ∧ m ∈ sel.chain ∧
        IsLeast {l | g.LinkedAt .contains T m l} line ∧
        keyOf g F = path ∧ nameOf g T = type ∧ member g sel m line = e := by
  rw [mem_membersOf]
  constructor
  · rintro ⟨f, hf, rfl, t, ht, rfl, he⟩
    obtain ⟨F, hF, hfile⟩ := mem_assemble.mp hf
    obtain ⟨-, rfl⟩ := file_listed_iff.mp hfile
    obtain ⟨T, line, hlink, htype⟩ := mem_listedTypes hg (List.mem_mergeSort.mp ht)
    obtain ⟨-, rfl⟩ := type_listed_iff.mp htype
    obtain ⟨m, line, hm, hleast, rfl⟩ := (mem_members hg).mp he
    exact ⟨F, hF, T, m, line, hlink, hm, hleast, rfl, rfl, rfl⟩
  · rintro ⟨F, hF, T, m, line, hlink, hm, hleast, rfl, rfl, rfl⟩
    have he := (mem_members hg).mpr ⟨m, line, hm, hleast, rfl⟩
    obtain ⟨f, hf, hpath, t, ht, hname, hmembers, -⟩ :=
      exists_mem_assemble hg hF hlink fun _ hnil => absurd hnil (List.ne_nil_of_mem he)
    exact ⟨f, hf, hpath, t, ht, hname, hmembers ▸ he⟩

/-- **No member twice**: path, type name and signature together tell the members apart. -/
theorem nodup_memberKeys (hg : g.WellFormed) {sel : Selection} (hnodup : sel.files.Nodup)
    (hfiles : ∀ file ∈ sel.files, g.IsKind .file file) :
    (memberKeys (assemble g sel)).Nodup := by
  rw [memberKeys, membersOf, List.map_flatMap]
  refine nodup_flatMap_of_key Prod.fst FileEntry.path ?_ ?_ ?_
  · intro f _ p hp
    simp only [List.mem_map, List.mem_flatMap] at hp
    grind
  · refine ((List.mergeSort_perm _ _).map _).nodup_iff.mpr (nodup_map_filterMap (keyOf g) ?_ ?_)
    · intro file _ f hf
      rw [← (file_listed_iff.mp hf).2]
    · exact nodup_map_keyOf hg .file hnodup hfiles
  · intro f hf
    obtain ⟨file, hfile, hentry⟩ := mem_assemble.mp hf
    obtain ⟨-, rfl⟩ := file_listed_iff.mp hentry
    rw [List.map_flatMap]
    refine nodup_flatMap_of_key (fun p => p.2.1) TypeEntry.name ?_ ?_ ?_
    · intro t _ p hp
      simp only [List.mem_map] at hp
      grind
    · refine ((List.mergeSort_perm _ _).map _).nodup_iff.mpr ?_
      exact nodup_listedTypes hg sel (hfiles file hfile)
    · intro t ht
      obtain ⟨T, line, hlink, htype⟩ := mem_listedTypes hg (List.mem_mergeSort.mp ht)
      obtain ⟨-, rfl⟩ := type_listed_iff.mp htype
      apply List.Nodup.of_map (fun p => p.2.2)
      rw [List.map_map, List.map_map]
      exact nodup_members hg sel (hg.isKind_of_contains_file hlink (hfiles file hfile))

/-- The files of all declarations of the selected methods are selected. -/
def Selection.Covers (sel : Selection) (g : Graph) : Prop :=
  ∀ F T m, g.Linked .contains F T → g.Linked .contains T m → m ∈ sel.chain → F ∈ sel.files

/-- **Where members stand**: a report shows a selected method in all places that declare it. -/
theorem mem_memberKeys (hg : g.WellFormed) {sel : Selection} (hcover : sel.Covers g)
    {path type signature : String} :
    (path, type, signature) ∈ memberKeys (assemble g sel) ↔
      ∃ F T m, g.find? .file path = some F ∧ g.find? .type type = some T ∧
        g.find? .method signature = some m ∧ g.Linked .contains F T ∧ g.Linked .contains T m ∧
        m ∈ sel.chain := by
  simp only [find?_eq_some_iff hg, memberKeys, List.mem_map, Prod.exists, Prod.mk.injEq,
    mem_membersOf_assemble hg]
  constructor
  · rintro ⟨path, type, e, ⟨F, -, T, m, line, hFT, hm, hleast, rfl, rfl, rfl⟩, rfl, rfl, rfl⟩
    have hTm : g.Linked .contains T m := ⟨line, hleast.1⟩
    obtain ⟨hfile, htype, hmethod⟩ := hg.isKind_of_contains_contains hFT hTm
    exact ⟨F, T, m, ⟨hfile, rfl⟩, ⟨htype, (nameOf_type htype).symm⟩, ⟨hmethod, rfl⟩, hFT, hTm, hm⟩
  · rintro ⟨F, T, m, ⟨hfile, rfl⟩, ⟨htype, rfl⟩, ⟨hmethod, rfl⟩, hFT, hTm, hm⟩
    obtain ⟨line, hleast⟩ := exists_isLeast_line hg hTm
    refine ⟨keyOf g F, keyOf g T, member g sel m line, ?_, rfl, rfl, rfl⟩
    exact ⟨F, hcover F T m hFT hTm hm, T, m, line, hFT, hm, hleast, rfl, nameOf_type htype, rfl⟩

end

end Ripple
