import Ripple.Export.Document
import Ripple.Proofs.Impact.Growth
import Ripple.Proofs.Impact.Renumbering
import Ripple.Proofs.Lists

/-!
# Ripple.Proofs.Impact.DeclarationLine

The line at which a type stands under a file, in reports and in inventories.

A file may declare a type several times.  Both a report and an inventory go through the edges from
the file to its types and keep the first one to each type, but a report takes the edges in order of
arrival and an inventory in order of line.  So a report shows the line that arrived first
(`listed_at_first`) and an inventory the smallest one (`isLeast_of_mem_declarations`), and the two
are the same only if the smallest line arrived first; `redeclared` is a graph in which it did not.
-/

namespace Ripple

open Std

/-! ## inventories -/

namespace Export

/-- Both ways to keep the first edge to each target are one. -/
theorem firstPerTarget_go_eq (edges : List Edge) (seen : HashSet NodeId) :
    Assembly.firstPerTarget.go seen edges =
      (firstDeclarations.go seen edges).map fun e => (e.target, e.line) := by
  induction edges generalizing seen with
  | nil => rfl
  | cons e edges ih =>
      rw [Assembly.firstPerTarget.go, firstDeclarations.go]
      split
      · exact ih seen
      · rw [ih, List.map_cons]

/-- The declarations that the inventory of a file shows. -/
def declarations (g : Graph) (file : NodeId) : List Edge :=
  firstDeclarations (byLine (g.outgoing file .contains))

theorem nodup_declarations (g : Graph) (file : NodeId) :
    ((declarations g file).map (·.target)).Nodup := by
  have hnodup := (Assembly.firstPerTarget_go (byLine (g.outgoing file .contains)) ∅).1
  rwa [firstPerTarget_go_eq, List.map_map] at hnodup

theorem pairwise_byLine (edges : List Edge) :
    (byLine edges).Pairwise fun a b => a.line ≤ b.line := by
  have hsorted : (byLine edges).Pairwise fun a b => decide (a.line ≤ b.line) = true := by
    apply List.pairwise_mergeSort
    · intro a b c hab hbc
      exact decide_eq_true ((of_decide_eq_true hab).trans (of_decide_eq_true hbc))
    · intro a b
      simpa using Int.le_total a.line b.line
  exact hsorted.imp of_decide_eq_true

section
variable {g : Graph} (hg : g.WellFormed)
include hg

/-- A type is shown at the smallest line of its declarations. -/
theorem isLeast_of_mem_declarations {file : NodeId} {e : Edge} (he : e ∈ declarations g file) :
    IsLeast {l | g.LinkedAt .contains file e.target l} e.line := by
  have hfirst :
      Assembly.firstLine? (byLine (g.outgoing file .contains)) e.target = some e.line := by
    rw [← Assembly.mem_firstPerTarget, Assembly.firstPerTarget, firstPerTarget_go_eq]
    exact List.mem_map.mpr ⟨e, he, rfl⟩
  obtain ⟨d, hd, hline⟩ := Option.map_eq_some_iff.mp hfirst
  have htarget : d.target = e.target := by simpa using List.find?_some hd
  have hmem : ∀ c, c ∈ byLine (g.outgoing file .contains) ↔ c ∈ g.outgoing file .contains :=
    fun c => List.mem_mergeSort
  rw [← hline]
  constructor
  · exact hg.exists_mem_outgoing.mp
      ⟨d, (hmem d).mp (List.mem_of_find?_eq_some hd), htarget, rfl⟩
  · intro l hl
    obtain ⟨c, hc, hc', rfl⟩ := hg.exists_mem_outgoing.mpr hl
    exact le_of_find?_of_pairwise (pairwise_byLine _) hd c ((hmem c).mpr hc) (beq_iff_eq.mpr hc')

/-- All types of a file are shown. -/
theorem exists_mem_declarations {file type : NodeId} (hlink : g.Linked .contains file type) :
    ∃ e ∈ declarations g file, e.target = type := by
  obtain ⟨line, hline⟩ := hlink
  obtain ⟨d, hd, rfl, -⟩ := hg.exists_mem_outgoing.mpr hline
  obtain ⟨-, -, hcomplete⟩ := Assembly.firstPerTarget_go (byLine (g.outgoing file .contains)) ∅
  obtain ⟨line, hfirst⟩ := hcomplete d (List.mem_mergeSort.mpr hd) HashSet.not_mem_empty
  rw [firstPerTarget_go_eq, List.mem_map] at hfirst
  obtain ⟨e, he, heq⟩ := hfirst
  exact ⟨e, he, congrArg Prod.fst heq⟩

end

theorem exists_concat_of_mem {α : Type} (f : α → String) {a : α} {l : List α} (h : a ∈ l) :
    ∃ front back, Display.concat f l = front ++ f a ++ back := by
  induction l with
  | nil => simp at h
  | cons b l ih =>
      rcases List.mem_cons.mp h with rfl | h
      · exact ⟨"", Display.concat f l, by simp [Display.concat]⟩
      · obtain ⟨front, back, heq⟩ := ih h
        exact ⟨f b ++ front, back, by rw [Display.concat, heq]; simp [String.append_assoc]⟩

/-- A document holds the inventory of each file. -/
theorem exists_document_of_file {g : Graph} {F : Node} (hF : F ∈ g.nodes) (hkind : F.kind = .file)
    (opts : Options) (generated : String) :
    ∃ front back,
      document g opts generated = front ++ fileSection g opts.callChains F ++ back := by
  have hmem : F ∈ (g.nodesOfKind .file).mergeSort fun a b => decide (a.key ≤ b.key) := by
    simp [Graph.nodesOfKind, hF, hkind]
  obtain ⟨head, hdocument⟩ : ∃ head, document g opts generated =
      head ++ Display.concat (fileSection g opts.callChains)
        ((g.nodesOfKind .file).mergeSort fun a b => decide (a.key ≤ b.key)) ++
        impactTable g opts.impactRows :=
    ⟨_, rfl⟩
  obtain ⟨front, back, hsection⟩ := exists_concat_of_mem (fileSection g opts.callChains) hmem
  refine ⟨head ++ front, back ++ impactTable g opts.impactRows, ?_⟩
  rw [hdocument, hsection]
  simp only [String.append_assoc]

/-- The section of a type begins with its name and the line of the declaration. -/
theorem exists_typeSection (g : Graph) (callChains : Bool) (e : Edge) :
    ∃ body, typeSection g callChains e =
      s!"#### {(symbolOf g e.target).name} (line {e.line})\n\n" ++ body := by
  unfold typeSection
  simp only [String.append_assoc]
  exact ⟨_, rfl⟩

end Export

/-! ## reports -/

namespace Graph

/-- The first edge of a kind from one node to another has arrived with a line. -/
def FirstLinkedAt (g : Graph) (kind : EdgeKind) (source target : NodeId) (line : Int) : Prop :=
  ∃ e ∈ g.edges, e.kind = kind ∧ e.source = source ∧ e.target = target ∧ e.line = line ∧
    ∀ d ∈ g.edges, d.kind = kind → d.source = source → d.target = target → e.id ≤ d.id

theorem WellFormed.firstLinkedAt_of_firstLine? {g : Graph} (hg : g.WellFormed) {kind : EdgeKind}
    {source target : NodeId} {line : Int}
    (h : Assembly.firstLine? (g.outgoing source kind) target = some line) :
    g.FirstLinkedAt kind source target line := by
  obtain ⟨e, he, rfl⟩ := Option.map_eq_some_iff.mp h
  have htarget : e.target = target := by simpa using List.find?_some he
  obtain ⟨hmem, hkind, hsource⟩ := hg.mem_outgoing.mp (List.mem_of_find?_eq_some he)
  have hsorted : (g.outgoing source kind).Pairwise fun a b => a.id ≤ b.id := by
    rw [hg.outgoing_eq]
    exact (hg.edges_pairwise.filter _).imp Int.le_of_lt
  refine ⟨e, hmem, hkind, hsource, htarget, rfl, ?_⟩
  intro d hd hkind' hsource' htarget'
  exact le_of_find?_of_pairwise hsorted he d (hg.mem_outgoing.mpr ⟨hd, hkind', hsource'⟩)
    (beq_iff_eq.mpr htarget')

end Graph

/-- A type is listed under a file at the line of its first declaration there. -/
theorem listed_at_first {g : Graph} (hg : g.WellFormed) {sel : Selection}
    (hfiles : ∀ F ∈ sel.files, g.IsKind .file F) {f : FileEntry} (hf : f ∈ assemble g sel)
    {t : TypeEntry} (ht : t ∈ f.types) :
    ∃ F T, g.find? .file f.path = some F ∧ g.find? .type t.name = some T ∧
      Assembly.firstLine? (g.outgoing F .contains) T = some t.line := by
  obtain ⟨F, hF, hentry⟩ := mem_assemble.mp hf
  obtain ⟨-, rfl⟩ := Assembly.file_listed_iff.mp hentry
  obtain ⟨⟨T, line⟩, hfirst, hlisted⟩ := List.mem_filterMap.mp (List.mem_mergeSort.mp ht)
  obtain ⟨-, rfl⟩ := Assembly.type_listed_iff.mp hlisted
  have hlink := (Assembly.exists_mem_firstPerTarget hg).mp ⟨line, hfirst⟩
  have htype := hg.isKind_of_contains_file hlink (hfiles F hF)
  refine ⟨F, T, ?_, ?_, Assembly.mem_firstPerTarget.mp hfirst⟩
  · exact (Assembly.find?_eq_some_iff hg).mpr ⟨hfiles F hF, rfl⟩
  · exact (Assembly.find?_eq_some_iff hg).mpr ⟨htype, (Assembly.nameOf_type htype).symm⟩

namespace Query

/-- Whatever a query answers has a property. -/
def Ensures (q : Query α) (P : α → Prop) : Prop :=
  ∀ p a p', q.run p = .ok (a, p') → P a

namespace Ensures

variable {P : β → Prop}

theorem fail (e : Failure) : Ensures (throw e) P := by
  intro p a p' h
  cases h

theorem bind {q : Query α} {f : α → Query β} (h : ∀ a, Ensures (f a) P) :
    Ensures (q >>= f) P := by
  intro p b p' hrun
  cases hq : q.run p with
  | error e =>
      rw [StateT.run_bind, hq] at hrun
      cases hrun
  | ok x =>
      rw [run_bind_of_ok hq] at hrun
      exact h x.1 x.2 b p' hrun

theorem ite {c : Bool} {q q' : Query β} (hq : Ensures q P) (hq' : Ensures q' P) :
    Ensures (if c = true then q else q') P := by
  cases c with
  | true => exact hq
  | false => exact hq'

theorem of_answer {q : Query β} (h : Ensures q P) {b : β} (hb : q.answer = .ok b) : P b := by
  obtain ⟨p, hrun⟩ := answer_eq_ok.mp hb
  exact h _ b p hrun

end Ensures

/-- The entries of a report are those of a selection of files. -/
def Assembled (g : Graph) (r : Report) : Prop :=
  ∃ sel : Selection, (∀ F ∈ sel.files, g.IsKind .file F) ∧ r.files = assemble g sel

theorem reportOn_ensures {s : Scope} {target : Target} {type : NodeId}
    {chain fields files : List NodeId} (h : ∀ F ∈ files, s.graph.IsKind .file F) :
    Ensures (reportOn s target type chain fields files) (Assembled s.graph) := by
  rintro p r p' ⟨⟩
  exact ⟨_, h, rfl⟩

section
variable {s : Scope} (hg : s.graph.WellFormed)
include hg

theorem fieldImpact_ensures (fieldName className : String) :
    Ensures (fieldImpact s fieldName className) (Assembled s.graph) := by
  rw [fieldImpact_eq]
  by_cases h : ∃ field type, Located s.graph .field fieldName className field type
  · obtain ⟨field, type, h⟩ := h
    rw [withMember_of_located h]
    refine .bind fun _ => .bind fun _ => reportOn_ensures ?_
    exact selection_files_isKind hg (hg.isKind_of_find? h.type_found) _ []
  · rw [withMember_of_not_located h]
    exact .fail _

theorem methodImpact_ensures (signature className : String) :
    Ensures (methodImpact s signature className) (Assembled s.graph) := by
  rw [methodImpact_eq]
  by_cases h : ∃ method type, Located s.graph .method signature className method type
  · obtain ⟨method, type, h⟩ := h
    rw [withMember_of_located h]
    refine .bind fun _ => .bind fun _ => .bind fun _ => .bind fun _ => reportOn_ensures ?_
    exact selection_files_isKind hg (hg.isKind_of_find? h.type_found) _ []
  · rw [withMember_of_not_located h]
    exact .fail _

theorem classImpact_ensures (className : String) :
    Ensures (classImpact s className) (Assembled s.graph) := by
  rw [classImpact_eq]
  by_cases h : Known s.graph .type className
  · obtain ⟨type, h⟩ := h
    refine (congrArg (Ensures · _) (withKey_of_found h _)).mpr ?_
    refine .bind fun _ => .bind fun _ => .bind fun _ => .bind fun _ => .bind fun _ =>
      .ite (.fail _) (reportOn_ensures ?_)
    exact classSelection_files_isKind hg (hg.isKind_of_find? h.2) _ [] _
  · exact (congrArg (Ensures · _) (withKey_of_absent h _)).mpr (.fail _)

/-- All reports are assembled from files. -/
theorem assembled_of_ask {q : Question} {r : Report} (h : ask s q = .ok (.report r)) :
    Assembled s.graph r := by
  cases q with
  | field fieldName className =>
      obtain ⟨_, hr, ⟨⟩⟩ := map_eq_ok h
      exact (fieldImpact_ensures hg fieldName className).of_answer hr
  | method signature className =>
      obtain ⟨_, hr, ⟨⟩⟩ := map_eq_ok h
      exact (methodImpact_ensures hg signature className).of_answer hr
  | «class» className =>
      obtain ⟨_, hr, ⟨⟩⟩ := map_eq_ok h
      exact (classImpact_ensures hg className).of_answer hr
  | writers | readers | upstream | downstream =>
      obtain ⟨_, -, ⟨⟩⟩ := map_eq_ok h

end

/-- **Lines of declarations**: for every graph that a builder holds and every type that a file
contains, reports and inventories keep one of the lines at which the file declares the type.  A
report that lists the type under the file, whatever the question, the cap and the polls, shows the
line of the edge that arrived first; in a document, the inventory of the file has one section for
the type, and it begins with the smallest line. -/
theorem ask_declaration_lines {g : Graph} (hg : g.Built) {F T : Node} (hF : F ∈ g.nodes)
    (hfile : F.kind = .file) (hT : T ∈ g.nodes) (hlink : g.Linked .contains F.id T.id) :
    ∃ first least, g.FirstLinkedAt .contains F.id T.id first ∧
      IsLeast {l | g.LinkedAt .contains F.id T.id l} least ∧
      (∀ s q r, s.graph = g → ask s q = .ok (.report r) → ∀ f ∈ r.files, f.path = F.key →
        ∀ t ∈ f.types, t.name = T.name → t.line = first) ∧
      ∀ opts generated, ∃ front back declared,
        Export.document g opts generated =
          front ++ Export.fileSection g opts.callChains F ++ back ∧
        Export.fileSection g opts.callChains F =
          s!"### 📄 {Display.shortPath F.key}\n\n`{F.key}`\n\n" ++
            Display.concat (Export.typeSection g opts.callChains) declared ∧
        (declared.map (·.target)).Nodup ∧
        ∃ e ∈ declared, e.target = T.id ∧ ∃ body, Export.typeSection g opts.callChains e =
          s!"#### {T.name} (line {least})\n\n" ++ body := by
  have hwf := hg.wellFormed
  have hF' := hwf.node?_iff.mpr ⟨hF, rfl⟩
  have hT' := hwf.node?_iff.mpr ⟨hT, rfl⟩
  have htype := hwf.isKind_of_contains_file hlink ⟨F, hF', hfile⟩
  have hpath : g.find? .file F.key = some F.id := (hwf.find?_iff _ _ _).mpr ⟨F, hF', hfile, rfl⟩
  have hname : g.find? .type T.name = some T.id := by
    rw [← Assembly.nameOf_eq hT', Assembly.nameOf_type htype]
    exact (Assembly.find?_eq_some_iff hwf).mpr ⟨htype, rfl⟩
  obtain ⟨line, hline⟩ := hlink
  obtain ⟨first, hfirst⟩ := Assembly.exists_firstLine? hwf hline
  obtain ⟨e, he, htarget⟩ := Export.exists_mem_declarations hwf ⟨line, hline⟩
  have hleast := Export.isLeast_of_mem_declarations hwf he
  rw [htarget] at hleast
  refine ⟨first, e.line, hwf.firstLinkedAt_of_firstLine? hfirst, hleast, ?_, ?_⟩
  · rintro s q r rfl hr f hf hfpath t ht htname
    obtain ⟨sel, hsel, hfiles⟩ := assembled_of_ask hwf hr
    obtain ⟨F₁, T₁, hF₁, hT₁, hfirst₁⟩ := listed_at_first hwf hsel (hfiles ▸ hf) ht
    rw [hfpath, hpath] at hF₁
    rw [htname, hname] at hT₁
    cases hF₁
    cases hT₁
    exact Option.some.inj (hfirst₁.symm.trans hfirst)
  · intro opts generated
    obtain ⟨front, back, hdocument⟩ := Export.exists_document_of_file hF hfile opts generated
    obtain ⟨body, hbody⟩ := Export.exists_typeSection g opts.callChains e
    refine ⟨front, back, Export.declarations g F.id, hdocument, rfl,
      Export.nodup_declarations g F.id, e, he, htarget, body, ?_⟩
    rw [hbody, htarget, Export.symbolOf, hT']
    rfl

end Query

/-! ## a type that is declared twice -/

namespace Graph

/-- A file that declares a class twice, the second time at a smaller line, and a method of the
class. -/
def redeclaredFacts : List Operation :=
  [.fact (.file "A.java" "/A.java"), .fact (.type "A" ""), .fact (.method "f()"),
    .fact (.link .contains 1 2 9), .fact (.link .contains 1 2 3), .fact (.link .contains 2 3 4)]

/-- The graph of these facts. -/
def redeclared : Graph := (Builder.after redeclaredFacts (Builder.new 0)).graph

theorem redeclared_built : redeclared.Built := ⟨0, redeclaredFacts, rfl⟩

section
open Builder

theorem redeclared_eq : redeclared =
    [EdgeKey.mk .contains 1 2 9, ⟨.contains, 1, 2, 3⟩, ⟨.contains, 2, 3, 4⟩].foldl
      (fun g k => insertEdge g ⟨g.edges.size + 1, k.kind, k.source, k.target, k.line, 0, certain⟩)
      (insertNode (update (insertNode (insertNode empty (.file "A.java" "/A.java"))
        (.type "A" "")) 2 (withFilePath "")) (.method "f()" "" [])) := by
  simp [redeclared, redeclaredFacts, after, Operation.perform, ingest, run_map, upsertFile,
    upsertType, upsertMethod, run_bind, run_modify, upsert_run_of_new, link_run, Builder.new,
    node?_insertNode, find?_insertNode, node?_update, Text.isBlank, Symbol.key, Symbol.kind,
    Text.isBlankChar, Node.kind, EdgeKind.joins, withFilePath, Edge.key]

end

theorem redeclared_find? :
    redeclared.find? .file "/A.java" = some 1 ∧ redeclared.find? .type "A" = some 2 ∧
      redeclared.find? .method "f()" = some 3 := by
  simp [redeclared_eq, find?_insertNode, Symbol.key, Symbol.kind]

theorem redeclared_linkedAt (kind : EdgeKind) (a b : NodeId) (line : Int) :
    redeclared.LinkedAt kind a b line ↔ (⟨kind, a, b, line⟩ : EdgeKey) ∈
      [EdgeKey.mk .contains 1 2 9, ⟨.contains, 1, 2, 3⟩, ⟨.contains, 2, 3, 4⟩] := by
  rw [linkedAt_iff_key]
  simp [redeclared_eq, Edge.key]

theorem redeclared_isLeast : IsLeast {l | redeclared.LinkedAt .contains 1 2 l} 3 := by
  simp [redeclared_linkedAt, IsLeast, lowerBounds]

theorem redeclared_firstLine? :
    Assembly.firstLine? (redeclared.outgoing 1 .contains) 2 = some 9 := by
  rw [redeclared_built.wellFormed.outgoing_eq]
  simp [redeclared_eq, Assembly.firstLine?]

end Graph

namespace Query

/-- The inventory shows the class at the smaller line. -/
theorem redeclared_declaration_lines :
    Graph.redeclared.Built ∧ ∃ F ∈ Graph.redeclared.nodes, F.kind = .file ∧ F.key = "/A.java" ∧
      ∃ T ∈ Graph.redeclared.nodes, T.name = "A" ∧ Graph.redeclared.Linked .contains F.id T.id ∧
        ∃ declared, Export.fileSection Graph.redeclared true F =
          s!"### 📄 {Display.shortPath F.key}\n\n`{F.key}`\n\n" ++
            Display.concat (Export.typeSection Graph.redeclared true) declared ∧
          ∃ e ∈ declared, e.target = T.id ∧ ∃ body,
            Export.typeSection Graph.redeclared true e = "#### A (line 3)\n\n" ++ body := by
  have hbuilt := Graph.redeclared_built
  have hwf := hbuilt.wellFormed
  obtain ⟨hpath, hclass, -⟩ := Graph.redeclared_find?
  obtain ⟨F, hF, hfile, hkey⟩ := (hwf.find?_iff _ _ _).mp hpath
  obtain ⟨T, hT, htype, hname⟩ := (hwf.find?_iff _ _ _).mp hclass
  obtain ⟨hF', hFid⟩ := hwf.node?_iff.mp hF
  obtain ⟨hT', hTid⟩ := hwf.node?_iff.mp hT
  have hname' : T.name = "A" := by
    rw [← Assembly.nameOf_eq hT, Assembly.nameOf_type ⟨T, hT, htype⟩, Assembly.keyOf_eq hT, hname]
  have hleast := Graph.redeclared_isLeast
  rw [← hFid, ← hTid] at hleast
  have hlink : Graph.redeclared.Linked .contains F.id T.id := ⟨3, hleast.1⟩
  obtain ⟨_, least, -, hleast', -, hinventory⟩ :=
    ask_declaration_lines hbuilt hF' hfile hT' hlink
  obtain ⟨-, -, declared, -, hsection, -, e, he, htarget, body, hbody⟩ := hinventory {} ""
  rw [hname', hleast'.unique hleast] at hbody
  exact ⟨hbuilt, F, hF', hfile, hkey, T, hT', hname', hlink, declared, hsection, e, he, htarget,
    body, hbody⟩

/-- A report shows the class at the line that arrived first, which is not the smallest. -/
theorem redeclared_listed_at_larger :
    Graph.redeclared.Built ∧ ∃ r,
      ask (.unbounded Graph.redeclared) (.method "f()" "A") = .ok (.report r) ∧
        (∃ f ∈ r.files, f.path = "/A.java" ∧ ∃ t ∈ f.types, t.name = "A" ∧ t.line = 9) ∧
        IsLeast {l | Graph.redeclared.LinkedAt .contains 1 2 l} 3 := by
  have hbuilt := Graph.redeclared_built
  have hwf := hbuilt.wellFormed
  obtain ⟨hpath, hclass, hmethod⟩ := Graph.redeclared_find?
  have hdeclared : Graph.redeclared.Linked .contains 2 3 :=
    ⟨4, (Graph.redeclared_linkedAt _ _ _ _).mpr (by decide)⟩
  have hlink : Graph.redeclared.Linked .contains 1 2 := ⟨3, Graph.redeclared_isLeast.1⟩
  have hlocated : Located Graph.redeclared .method "f()" "A" 3 2 :=
    ⟨by decide, by decide, hmethod, hclass,
      (hwf.mem_declaringTypes_method (hwf.isKind_of_find? hmethod)).mpr hdeclared⟩
  obtain ⟨chain, fields, -, -, hanswer⟩ := methodImpact_answer hwf hlocated
  obtain ⟨hfile, hkey⟩ := (Assembly.find?_eq_some_iff hwf).mp hpath
  obtain ⟨htype, hname⟩ := (Assembly.find?_eq_some_iff hwf).mp hclass
  obtain ⟨f, hf, hfpath, t, ht, htname⟩ := exists_entry_selection hwf chain fields hlink
  rw [hkey] at hfpath
  rw [Assembly.nameOf_type htype, hname] at htname
  obtain ⟨F, T, hF, hT, hfirst⟩ :=
    listed_at_first hwf (selection_files_isKind hwf htype chain fields) hf ht
  rw [hfpath, hpath] at hF
  rw [htname, hclass] at hT
  cases hF
  cases hT
  refine ⟨hbuilt, _, congrArg (Answer.report <$> ·) hanswer, ⟨f, hf, hfpath, t, ht, htname, ?_⟩,
    Graph.redeclared_isLeast⟩
  exact Option.some.inj (hfirst.symm.trans Graph.redeclared_firstLine?)

end Query

end Ripple
