import Ripple.Proofs.Impact.Transfer

/-!
# Ripple.Proofs.Impact.Flat

Flat questions are exact: when they succeed, and what their lists hold.

Each flat question is about a target and asks for some methods, both said with keys and edges only
(`Question.inquiry?`).  It finds its target missing or a list of just these methods (`Finds`), and a
list of methods is described by one entry for each method and each path under which it is found
(`Graph.FoundUnder`), in strict order (`mem_describe_iff`, `pairwise_describe`).
-/

namespace Ripple

namespace Graph

variable {g : Graph}

/-! ## names and paths of methods -/

/-- A method has a simple name. -/
def Named (g : Graph) (name : String) (m : NodeId) : Prop :=
  ∃ signature, g.find? .method signature = some m ∧ Signature.simpleName signature = name

/-- The paths under which a method is found: those of the files that contain a type that declares
it, the file path of such a type that no file contains, and the empty path if no type declares
it. -/
inductive FoundUnder (g : Graph) (m : NodeId) : String → Prop where
  | file (htype : g.Linked .contains T m) (hfile : g.Linked .contains F T)
      (hpath : g.find? .file path = some F) : FoundUnder g m path
  | type (htype : g.Linked .contains T m) (hfile : ∀ F, ¬ g.Linked .contains F T)
      (hpath : g.node? T = some ⟨T, .type name path⟩) : FoundUnder g m path
  | undeclared (htype : ∀ T, ¬ g.Linked .contains T m) : FoundUnder g m ""

/-- A type shows its name and the file path that was given for it. -/
theorem WellFormed.exists_type (hg : g.WellFormed) {T : NodeId} (h : g.IsKind .type T) :
    ∃ name path, g.node? T = some ⟨T, .type name path⟩ := by
  obtain ⟨⟨_, symbol⟩, hn, hkind⟩ := h
  obtain rfl := (hg.node?_iff.mp hn).2
  cases symbol with
  | type name path => exact ⟨name, path, hn⟩
  | file _ _ | field _ _ | method _ _ _ => contradiction

end Graph

namespace Query

variable {g : Graph}

theorem mem_pathsOf_iff (hg : g.WellFormed) {m : NodeId} (hm : g.IsKind .method m)
    {path : String} : path ∈ pathsOf g m ↔ g.FoundUnder m path := by
  have htypes := fun T => hg.mem_declaringTypes_method (t := T) hm
  have hfiles := fun T F => hg.mem_declaringFiles (t := T) (f := F)
  simp only [mem_pathsOf, List.eq_nil_iff_forall_not_mem, htypes, hfiles]
  constructor
  · rintro (⟨hnone, rfl⟩ | ⟨T, hT, ⟨hnone, rfl⟩ | ⟨F, hF, rfl⟩⟩)
    · exact .undeclared hnone
    · obtain ⟨name, path, hn⟩ := hg.exists_type (hg.isKind_of_contains_method hT hm)
      rw [hn]
      exact .type hT hnone hn
    · have hfile := (hg.isKind_of_contains_contains hF hT).1
      exact .file hT hF ((Assembly.find?_eq_some_iff hg).mpr ⟨hfile, rfl⟩)
  · rintro (⟨hT, hF, hpath⟩ | ⟨hT, hnone, hn⟩ | hnone)
    · exact .inr ⟨_, hT, .inr ⟨_, hF, ((Assembly.find?_eq_some_iff hg).mp hpath).2.symm⟩⟩
    · exact .inr ⟨_, hT, .inl ⟨hnone, by rw [hn]; rfl⟩⟩
    · exact .inl ⟨hnone, rfl⟩

/-- **A list of methods** holds one entry for each method and path. -/
theorem mem_describe_iff (hg : g.WellFormed) {methods : List NodeId}
    (hmethods : ∀ m ∈ methods, g.IsKind .method m) {e : MethodEntry} :
    e ∈ describe g methods ↔ e.name = Signature.simpleName e.signature ∧
      ∃ m ∈ methods, g.find? .method e.signature = some m ∧ g.FoundUnder m e.filePath := by
  rw [mem_describe hmethods]
  constructor
  · rintro ⟨m, hm, path, hpath, rfl⟩
    refine ⟨Assembly.nameOf_method (hmethods m hm), m, hm, ?_, ?_⟩
    · exact (Assembly.find?_eq_some_iff hg).mpr ⟨hmethods m hm, rfl⟩
    · exact (mem_pathsOf_iff hg (hmethods m hm)).mp hpath
  · rintro ⟨hname, m, hm, hfind, hpath⟩
    obtain ⟨hkind, hkey⟩ := (Assembly.find?_eq_some_iff hg).mp hfind
    refine ⟨m, hm, e.filePath, (mem_pathsOf_iff hg hkind).mpr hpath, ?_⟩
    rw [Assembly.nameOf_method hkind, hkey, ← hname]

/-- The order of a flat list, said with its two columns. -/
theorem pairwise_describe (hg : g.WellFormed) {methods : List NodeId} (hnodup : methods.Nodup)
    (hmethods : ∀ m ∈ methods, g.IsKind .method m) :
    (describe g methods).Pairwise fun a b =>
      a.signature < b.signature ∨ a.signature = b.signature ∧ a.filePath < b.filePath :=
  (arranged_describe hg hnodup hmethods).imp Prod.Lex.toLex_lt_toLex.mp

end Query

/-! ## what flat questions ask for -/

/-- What a flat question is about. -/
structure Inquiry where
  /-- The text of the question. -/
  text : String
  /-- What the text names is there. -/
  target : Prop
  /-- The methods that are asked for. -/
  sought : NodeId → Prop

namespace Inquiry

/-- The methods that access a field in one way. -/
def access (g : Graph) (kind : EdgeKind) (fieldName : String) : Inquiry where
  text := fieldName
  target := ∃ field, g.find? .field fieldName = some field
  sought m := ∃ field, g.find? .field fieldName = some field ∧ g.Linked kind m field

/-- The methods from which one of a name is reached and that are not of the name. -/
def upstream (g : Graph) (methodName : String) : Inquiry where
  text := methodName
  target := ∃ m, g.Named methodName m
  sought m := ¬ g.Named methodName m ∧ g.Upstream (g.Named methodName) m

/-- The methods that a method reaches, itself excepted. -/
def downstream (g : Graph) (signature : String) : Inquiry where
  text := signature
  target := ∃ start, g.find? .method signature = some start
  sought m := ∃ start, g.find? .method signature = some start ∧ m ≠ start ∧
    g.Downstream (· = start) m

end Inquiry

/-- What a question is about, if it is a flat one. -/
def Question.inquiry? (g : Graph) : Question → Option Inquiry
  | .writers fieldName => some (.access g .writes fieldName)
  | .readers fieldName => some (.access g .reads fieldName)
  | .upstream methodName => some (.upstream g methodName)
  | .downstream signature => some (.downstream g signature)
  | .field _ _ | .method _ _ | .class _ => none

namespace Query

variable {g : Graph}

/-! ## what flat questions find -/

/-- How a flat question ends: its target is missing, or it lists the methods that it asks for. -/
inductive Finds (g : Graph) (i : Inquiry) (answer : Except Failure Answer) : Prop where
  | missing (text : String) (htarget : ¬ i.target)
      (h : answer = .error (.coded Code.notFound text))
  | lists (nothing : String) (found : List NodeId) (htarget : i.target) (hnodup : found.Nodup)
      (hmem : ∀ m, m ∈ found ↔ i.sought m) (hmethods : ∀ m ∈ found, g.IsKind .method m)
      (h : answer = Answer.methods <$> listing g 0 nothing found)

theorem keyFailure_of_given {parameter key missing : String} (h : Text.isBlank key = false) :
    keyFailure parameter key missing = .coded Code.notFound missing := by
  rw [keyFailure, h]
  rfl

theorem fieldAccess_finds (hg : g.WellFormed) {kind : EdgeKind}
    (hkind : kind = .reads ∨ kind = .writes) {what fieldName : String}
    (htext : Text.isBlank fieldName = false) :
    Finds g (.access g kind fieldName)
      (Answer.methods <$> (fieldAccess (.unbounded g) kind what fieldName).answer) := by
  cases hfield : g.find? .field fieldName with
  | none =>
      refine .missing s!"field {Text.quote fieldName} not found"
        (by simp [Inquiry.access, hfield]) ?_
      rw [fieldAccess_of_unknown (by simp [Known, Scope.unbounded, hfield]),
        keyFailure_of_given htext]
      rfl
  | some field =>
      have hmem : ∀ m, m ∈ g.predecessors field kind ↔
          (Inquiry.access g kind fieldName).sought m := by
        intro m
        simp [Inquiry.access, hfield, hg.mem_predecessors]
      refine .lists _ (g.predecessors field kind) ⟨field, hfield⟩ (NodeId.nodup_setOf _) hmem ?_
        (congrArg _ (fieldAccess_answer ⟨htext, hfield⟩))
      intro m hm
      have hlink := hg.mem_predecessors.mp hm
      rcases hkind with rfl | rfl
      · exact isKind_of_accesses hg (.inl hlink)
      · exact isKind_of_accesses hg (.inr hlink)

theorem upstreamCallers_finds (hg : g.WellFormed) {methodName : String}
    (htext : Text.isBlank methodName = false) :
    Finds g (.upstream g methodName)
      (Answer.methods <$> (upstreamCallers (.unbounded g) methodName).answer) := by
  have hnamed : ∀ m, m ∈ g.methodsNamed methodName ↔ g.Named methodName m :=
    fun m => hg.mem_methodsNamed
  by_cases hnone : g.methodsNamed methodName = []
  · refine .missing s!"method {Text.quote methodName} not found" ?_ ?_
    · rintro ⟨m, hm⟩
      exact absurd hnone (List.ne_nil_of_mem ((hnamed m).mpr hm))
    · rw [upstreamCallers_of_unknown (by simp [Scope.unbounded, hnone]), keyFailure_of_given htext]
      rfl
  · obtain ⟨found, hnodup, hmem, hanswer⟩ := upstreamCallers_answer hg ⟨htext, hnone⟩
    obtain ⟨m, hm⟩ := List.exists_mem_of_ne_nil _ hnone
    have hsought : ∀ m, m ∈ found ↔ (Inquiry.upstream g methodName).sought m := by
      intro m
      simp only [hmem, hnamed, Inquiry.upstream]
    refine .lists _ found ⟨m, (hnamed m).mp hm⟩ hnodup hsought ?_ (congrArg _ (hanswer 0))
    exact fun m hm => isKind_of_upstream hg ((hmem m).mp hm).2

theorem downstreamCallees_finds (hg : g.WellFormed) {signature : String}
    (htext : Text.isBlank signature = false) :
    Finds g (.downstream g signature)
      (Answer.methods <$> (downstreamCallees (.unbounded g) signature).answer) := by
  cases hmethod : g.find? .method signature with
  | none =>
      refine .missing s!"method {Text.quote signature} not found"
        (by simp [Inquiry.downstream, hmethod]) ?_
      rw [downstreamCallees_of_unknown (by simp [Known, Scope.unbounded, hmethod]),
        keyFailure_of_given htext]
      rfl
  | some start =>
      obtain ⟨found, hnodup, hmem, hanswer⟩ := downstreamCallees_answer hg ⟨htext, hmethod⟩
      have hsought : ∀ m, m ∈ found ↔ (Inquiry.downstream g signature).sought m := by
        intro m
        simp [hmem, Inquiry.downstream, hmethod]
      refine .lists _ found ⟨start, hmethod⟩ hnodup hsought ?_ (congrArg _ (hanswer 0))
      exact fun m hm => isKind_of_downstream hg ((hmem m).mp hm).2

theorem ask_finds (hg : g.WellFormed) {q : Question} {i : Inquiry} (hq : q.inquiry? g = some i)
    (htext : Text.isBlank i.text = false) : Finds g i (ask (.unbounded g) q) := by
  cases q with
  | field _ _ | method _ _ | «class» _ => cases hq
  | writers fieldName =>
      obtain rfl := Option.some.inj hq
      exact fieldAccess_finds hg (.inr rfl) htext
  | readers fieldName =>
      obtain rfl := Option.some.inj hq
      exact fieldAccess_finds hg (.inl rfl) htext
  | upstream methodName =>
      obtain rfl := Option.some.inj hq
      exact upstreamCallers_finds hg htext
  | downstream signature =>
      obtain rfl := Option.some.inj hq
      exact downstreamCallees_finds hg htext

/-- **Flat lists are exact**: an unbounded flat question with a text that is not blank fails, with
the code for what is not found, exactly when its target is missing or there is no method that it
asks for.  Otherwise it lists these methods, each once under each path where it is found and nothing
else, in strict order of signature and path. -/
theorem ask_flat_exact (hg : g.Built) {q : Question} {i : Inquiry} (hq : q.inquiry? g = some i)
    (htext : Text.isBlank i.text = false) :
    ((∃ e, ask (.unbounded g) q = .error e ∧ e.code = Code.notFound) ↔
      ¬ i.target ∨ ∀ m, ¬ i.sought m) ∧
    (i.target → (∃ m, i.sought m) →
      ∃ entries, ask (.unbounded g) q = .ok (.methods ⟨entries, false⟩) ∧
        (entries.Pairwise fun a b =>
          a.signature < b.signature ∨ a.signature = b.signature ∧ a.filePath < b.filePath) ∧
        ∀ e, e ∈ entries ↔ e.name = Signature.simpleName e.signature ∧
          ∃ m, i.sought m ∧ g.find? .method e.signature = some m ∧
            g.FoundUnder m e.filePath) := by
  have hw := hg.wellFormed
  cases ask_finds hw hq htext with
  | missing text htarget h =>
      exact ⟨iff_of_true ⟨_, h, rfl⟩ (.inl htarget), fun ht => absurd ht htarget⟩
  | lists nothing found htarget hnodup hmem hmethods h =>
      cases found with
      | nil =>
          have hnone : ∀ m, ¬ i.sought m := fun m hm => List.not_mem_nil ((hmem m).mpr hm)
          exact ⟨iff_of_true ⟨_, h, rfl⟩ (.inr hnone), fun _ ⟨m, hm⟩ => absurd hm (hnone m)⟩
      | cons m ms =>
          have hsome : i.sought m := (hmem m).mp List.mem_cons_self
          constructor
          · refine iff_of_false ?_ ?_
            · rintro ⟨e, he, -⟩
              cases h.symm.trans he
            · rintro (hno | hno)
              · exact hno htarget
              · exact hno m hsome
          · intro _ _
            refine ⟨_, h, pairwise_describe hw hnodup hmethods, fun e => ?_⟩
            simp only [Closure.cut_zero, mem_describe_iff hw hmethods, hmem]

/-- The overloads of the getter call each other by way of the method that runs them; only this one
is listed as a caller, with its file. -/
theorem getters_flat_exact :
    Graph.getters.Built ∧ Text.isBlank "get" = false ∧
      ∃ entries, ask (.unbounded Graph.getters) (.upstream "get") =
          .ok (.methods ⟨entries, false⟩) ∧
        ⟨"run", "run()", "/A.java"⟩ ∈ entries ∧ ∀ e ∈ entries, e.signature ≠ "get(int)" := by
  obtain ⟨hfile, -, -, hrun, -, hcalls⟩ := Graph.getters_linked
  obtain ⟨hpath, -, -, -, hoverload, hmethod⟩ := Graph.getters_find?
  have hbuilt := Graph.getters_built
  have htext : Text.isBlank "get" = false := by decide
  have hnamed : Graph.getters.Named "get" 5 := ⟨"get(int)", hoverload, by decide⟩
  have hother : ¬ Graph.getters.Named "get" 6 := by
    rintro ⟨signature, hfind, hname⟩
    obtain rfl := hbuilt.wellFormed.key_unique hfind hmethod
    exact absurd hname (by decide)
  have hsought : (Inquiry.upstream Graph.getters "get").sought 6 :=
    ⟨hother, 5, hnamed, .single hcalls⟩
  obtain ⟨entries, hanswer, -, hmem⟩ :=
    (ask_flat_exact (q := .upstream "get") hbuilt rfl htext).2 ⟨5, hnamed⟩ ⟨6, hsought⟩
  refine ⟨hbuilt, htext, entries, hanswer, ?_, ?_⟩
  · exact (hmem _).mpr ⟨by decide, 6, hsought, hmethod, .file hrun hfile hpath⟩
  · intro e he hsignature
    obtain ⟨-, m, hm, hfind, -⟩ := (hmem e).mp he
    rw [hsignature, hoverload] at hfind
    exact hm.1 (Option.some.inj hfind ▸ hnamed)

end Query

end Ripple
