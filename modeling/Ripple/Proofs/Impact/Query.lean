import Ripple.Impact.Query
import Ripple.Proofs.Graph.Cap
import Ripple.Proofs.Impact.Assembly
import Ripple.Proofs.Text.Search

/-!
# Ripple.Proofs.Impact.Query

What the parts of a question compute, said in terms of the edges of a graph.

Questions are put together from closures over calls, from the methods that access a field, from the
methods that resemble a method, and from files of declarations.  Each part has one lemma here, for
graphs that are well-formed and questions that run unbounded (`Scope.unbounded`: no cap, and never
cancelled).  Closures are the only parts that could fail, so an unbounded question fails only where
it looks for its target (`withMember_of_not_located`, `withKey_of_absent`).
-/

namespace Ripple

open Std
open Closure (cut exceeds)

/-- A question about a whole graph: no cap, and never cancelled. -/
def Scope.unbounded (g : Graph) : Scope := ⟨g, 0, fun _ => false⟩

/-- A question about a graph under a cap, never cancelled. -/
def Scope.capped (g : Graph) (cap : Nat) : Scope := ⟨g, cap, fun _ => false⟩

theorem Scope.capped_zero (g : Graph) : Scope.capped g 0 = .unbounded g := rfl

namespace Graph

/-- One or more calls lead from a method to one with a property. -/
def Upstream (g : Graph) (P : NodeId → Prop) (m : NodeId) : Prop :=
  ∃ t, P t ∧ Relation.TransGen (g.Linked .calls) m t

/-- One or more calls lead to a method from one with a property. -/
def Downstream (g : Graph) (P : NodeId → Prop) (m : NodeId) : Prop :=
  ∃ s, P s ∧ Relation.TransGen (g.Linked .calls) s m

/-- A method reads or writes a field. -/
def Accesses (g : Graph) (m f : NodeId) : Prop :=
  g.Linked .reads m f ∨ g.Linked .writes m f

/-- Two methods have the same simple name and different signatures. -/
def Overloads (g : Graph) (c m : NodeId) : Prop :=
  ∃ s t, g.find? .method s = some c ∧ g.find? .method t = some m ∧
    Signature.simpleName s = Signature.simpleName t ∧ s ≠ t

end Graph

namespace Query

/-! ## runs -/

theorem answer_eq_ok {q : Query α} {a : α} :
    q.answer = .ok a ↔ ∃ p, q.run ⟨0, false⟩ = .ok (a, p) := by
  unfold answer
  cases h : q.run ⟨0, false⟩ with
  | error e => simp
  | ok x => simp [Prod.ext_iff]

theorem answer_eq_error {q : Query α} {f : Failure} :
    q.answer = .error f ↔ q.run ⟨0, false⟩ = .error f := by
  unfold answer
  cases h : q.run ⟨0, false⟩ with
  | error e => simp
  | ok x => simp

theorem run_bind_of_ok {q : Query α} {f : α → Query β} {p p' : Progress} {a : α}
    (h : q.run p = .ok (a, p')) : (q >>= f).run p = (f a).run p' := by
  rw [StateT.run_bind, h]
  rfl

theorem answer_of_throw {q : Query α} {e : Failure} (h : q = throw e) : q.answer = .error e := by
  rw [h]
  rfl

/-! ## runs whose polls do not matter -/

/-- A query succeeds, whatever the polls so far; the two marks tell whether a cap was hit before and
after it. -/
def Yields (q : Query α) (before : Bool) (a : α) (after : Bool) : Prop :=
  ∀ polls, ∃ polls', q.run ⟨polls, before⟩ = .ok (a, ⟨polls', after⟩)

theorem Yields.bind {q : Query α} {f : α → Query β} {t t' t'' : Bool} {a : α} {b : β}
    (h : Yields q t a t') (h' : Yields (f a) t' b t'') : Yields (q >>= f) t b t'' := by
  intro polls
  obtain ⟨polls', hq⟩ := h polls
  obtain ⟨polls'', hf⟩ := h' polls'
  exact ⟨polls'', (run_bind_of_ok hq).trans hf⟩

theorem Yields.of_not {c : Bool} {q q' : Query α} {t t' : Bool} {a : α} (hc : c = false)
    (h : Yields q' t a t') : Yields (if c = true then q else q') t a t' := by
  rwa [hc, if_neg Bool.false_ne_true]

theorem Yields.answer {q : Query α} {a : α} {t : Bool} (h : Yields q false a t) :
    q.answer = .ok a := by
  obtain ⟨polls, hq⟩ := h 0
  exact answer_eq_ok.mpr ⟨_, hq⟩

/-- A query fails, whatever the polls so far. -/
def Throws (q : Query α) (before : Bool) (e : Failure) : Prop :=
  ∀ polls, q.run ⟨polls, before⟩ = .error e

theorem Yields.throws {q : Query α} {f : α → Query β} {t t' : Bool} {a : α} {e : Failure}
    (h : Yields q t a t') (h' : Throws (f a) t' e) : Throws (q >>= f) t e := by
  intro polls
  obtain ⟨polls', hq⟩ := h polls
  exact (run_bind_of_ok hq).trans (h' polls')

theorem throws_of_cond {c : Bool} {q : Query α} {t : Bool} {e : Failure} (hc : c = true) :
    Throws (if c = true then throw e else q) t e := by
  rw [hc, if_pos rfl]
  exact fun polls => rfl

theorem Throws.answer {q : Query α} {e : Failure} (h : Throws q false e) : q.answer = .error e :=
  answer_eq_error.mpr (h 0)

theorem reportOn_yields {s : Scope} {target : Target} {type : NodeId}
    {chain fields files : List NodeId} {t : Bool} :
    Yields (reportOn s target type chain fields files) t
      ⟨target, assemble s.graph ⟨files, .ofList chain, .ofList fields, [type]⟩, t⟩ t :=
  fun polls => ⟨polls, rfl⟩

/-! ## the target of a question -/

/-- A member is known by its key, and a class declares it. -/
structure Located (g : Graph) (kind : NodeKind) (key className : String) (member type : NodeId) :
    Prop where
  key_given : Text.isBlank key = false
  class_given : Text.isBlank className = false
  member_found : g.find? kind key = some member
  type_found : g.find? .type className = some type
  declared : type ∈ g.declaringTypes member

/-- How questions about a member of a class begin: the names are checked, then member and class are
looked up, then the class must declare the member. -/
def withMember (g : Graph) (kind : NodeKind) (parameter key className missing absent : String)
    (k : NodeId → NodeId → Query α) : Query α := do
  require parameter key
  require "className" className
  let some member := g.find? kind key | notFound missing
  let some type := g.find? .type className | notFound absent
  if !declares g type member then notFound absent
  k member type

theorem withMember_of_located {g : Graph} {kind : NodeKind}
    {parameter key className missing absent : String} {member type : NodeId}
    (h : Located g kind key className member type) (k : NodeId → NodeId → Query α) :
    withMember g kind parameter key className missing absent k = k member type := by
  have hdeclares : declares g type member = true := List.contains_iff_mem.mpr h.declared
  simp [withMember, require, h.key_given, h.class_given, h.member_found, h.type_found, hdeclares]

/-- Why a question about a member of a class fails when the member is not located. -/
def memberFailure (parameter key className missing absent : String) (found : Bool) : Failure :=
  if Text.isBlank key then .coded Code.invalidParameter (parameter ++ " must not be blank")
  else if Text.isBlank className then .coded Code.invalidParameter "className must not be blank"
  else .coded Code.notFound (if found then absent else missing)

theorem withMember_of_not_located {g : Graph} {kind : NodeKind}
    {parameter key className missing absent : String}
    (h : ¬ ∃ member type, Located g kind key className member type)
    (k : NodeId → NodeId → Query α) :
    withMember g kind parameter key className missing absent k =
      throw (memberFailure parameter key className missing absent (g.find? kind key).isSome) := by
  unfold withMember require memberFailure
  cases hkey : Text.isBlank key with
  | true => rfl
  | false =>
      cases hclass : Text.isBlank className with
      | true => rfl
      | false =>
          cases hm : g.find? kind key with
          | none => rfl
          | some member =>
              cases ht : g.find? .type className with
              | none => rfl
              | some type =>
                  have hdeclares : declares g type member = false := by
                    by_contra hdeclared
                    refine h ⟨member, type, hkey, hclass, hm, ht, ?_⟩
                    simpa [declares] using hdeclared
                  simp only [hdeclares]
                  rfl

/-- A question about a member that is answered has located it. -/
theorem exists_located {g : Graph} {kind : NodeKind}
    {parameter key className missing absent : String} {k : NodeId → NodeId → Query α} {a : α}
    (h : (withMember g kind parameter key className missing absent k).answer = .ok a) :
    ∃ member type, Located g kind key className member type := by
  by_contra hlocated
  cases (answer_of_throw (withMember_of_not_located hlocated k)).symm.trans h

section
variable {g : Graph}

/-- When a member is located, said with the edges that declare members of its kind. -/
theorem exists_located_iff (hg : g.WellFormed) {kind : NodeKind} {edge : EdgeKind}
    (hedge : ∀ {member type}, g.IsKind kind member →
      (type ∈ g.declaringTypes member ↔ g.Linked edge type member)) {key className : String} :
    (∃ member type, Located g kind key className member type) ↔
      Text.isBlank key = false ∧ Text.isBlank className = false ∧
        ∃ member type, g.find? kind key = some member ∧ g.find? .type className = some type ∧
          g.Linked edge type member := by
  constructor
  · rintro ⟨member, type, h⟩
    have hlink := (hedge (hg.isKind_of_find? h.member_found)).mp h.declared
    exact ⟨h.key_given, h.class_given, member, type, h.member_found, h.type_found, hlink⟩
  · rintro ⟨hkey, hclass, member, type, hmember, htype, hlink⟩
    have hdeclared := (hedge (hg.isKind_of_find? hmember)).mpr hlink
    exact ⟨member, type, hkey, hclass, hmember, htype, hdeclared⟩

/-- A node is known under a key that is not blank. -/
def Known (g : Graph) (kind : NodeKind) (key : String) : Prop :=
  ∃ id, Text.isBlank key = false ∧ g.find? kind key = some id

/-- How a question about one node begins: the key is checked, then the node is looked up. -/
def withKey (g : Graph) (kind : NodeKind) (parameter key missing : String) (k : NodeId → Query α) :
    Query α := do
  require parameter key
  let some id := g.find? kind key | notFound missing
  k id

/-- Why a question about one node fails when there is no such node. -/
def keyFailure (parameter key missing : String) : Failure :=
  if Text.isBlank key then .coded Code.invalidParameter (parameter ++ " must not be blank")
  else .coded Code.notFound missing

theorem withKey_of_found {kind : NodeKind} {parameter key missing : String} {id : NodeId}
    (h : Text.isBlank key = false ∧ g.find? kind key = some id) (k : NodeId → Query α) :
    withKey g kind parameter key missing k = k id := by
  simp [withKey, require, h.1, h.2]

theorem withKey_of_absent {kind : NodeKind} {parameter key missing : String}
    (h : ¬ Known g kind key) (k : NodeId → Query α) :
    withKey g kind parameter key missing k = throw (keyFailure parameter key missing) := by
  unfold withKey require keyFailure
  cases hkey : Text.isBlank key with
  | true => rfl
  | false =>
      cases hid : g.find? kind key with
      | none => rfl
      | some id => exact absurd ⟨id, hkey, hid⟩ h

/-! ## closures -/

/-- A closure under a cap succeeds, with the first nodes of the closure without one. -/
theorem callClosure_yields (hg : g.WellFormed) (direction : Direction) (seeds : List NodeId) :
    ∃ nodes, nodes.Nodup ∧
      (∀ m, m ∈ nodes ↔
        m ∉ seeds ∧ ∃ s ∈ seeds, Relation.TransGen (g.Adjacent .calls direction) s m) ∧
      ∀ cap t, Yields (callClosure (.capped g cap) direction seeds) t (cut cap nodes)
        (t || exceeds cap nodes) := by
  obtain ⟨c, hc, hclosure⟩ := hg.closure_capped direction .calls seeds
  refine ⟨c.nodes, hc.nodup, hc.mem_iff, ?_⟩
  intro cap t polls
  obtain ⟨c', visits, hvisits, hnodes, htruncated⟩ := hclosure cap
  refine ⟨polls + visits / Closure.pollInterval, ?_⟩
  simp only [StateT.run, callClosure, Scope.capped, hvisits, hnodes, htruncated]

/-- An unbounded closure finds all that can be reached, and leaves no trace but its polls. -/
theorem callClosure_found (hg : g.WellFormed) (direction : Direction) (seeds : List NodeId) :
    ∃ nodes, (∀ m, m ∈ nodes ↔
        m ∉ seeds ∧ ∃ s ∈ seeds, Relation.TransGen (g.Adjacent .calls direction) s m) ∧
      ∀ t, Yields (callClosure (.unbounded g) direction seeds) t nodes t := by
  obtain ⟨nodes, -, hmem, hyields⟩ := callClosure_yields hg direction seeds
  refine ⟨nodes, hmem, fun t => ?_⟩
  have hwhole := hyields 0 t
  rwa [Scope.capped_zero, Closure.cut_zero, Closure.exceeds_zero, Bool.or_false] at hwhole

/-- The callers of some methods are those that reach them from outside. -/
theorem outside_callers_found (hg : g.WellFormed) {seeds : List NodeId} {P : NodeId → Prop}
    (hseeds : ∀ m, m ∈ seeds ↔ P m) :
    ∃ nodes, (∀ m, m ∈ nodes ↔ ¬ P m ∧ g.Upstream P m) ∧
      ∀ t, Yields (callers (.unbounded g) seeds) t nodes t := by
  obtain ⟨nodes, hmem, hyields⟩ := callClosure_found hg .backward seeds
  have hswap : ∀ s m, Relation.TransGen (g.Adjacent .calls .backward) s m ↔
      Relation.TransGen (g.Linked .calls) m s := fun s m => Relation.transGen_swap
  refine ⟨nodes, fun m => ?_, hyields⟩
  rw [hmem]
  simp only [hseeds, hswap, Graph.Upstream]

/-- With their callers, some methods are all that reach them. -/
theorem callers_found (hg : g.WellFormed) {seeds : List NodeId} {P : NodeId → Prop}
    (hseeds : ∀ m, m ∈ seeds ↔ P m) :
    ∃ nodes, (∀ m, m ∈ seeds ∨ m ∈ nodes ↔ P m ∨ g.Upstream P m) ∧
      ∀ t, Yields (callers (.unbounded g) seeds) t nodes t := by
  obtain ⟨nodes, hmem, hyields⟩ := outside_callers_found hg hseeds
  refine ⟨nodes, fun m => ?_, hyields⟩
  rw [hseeds, hmem]
  tauto

/-- With their callees, some methods are all that they reach. -/
theorem callees_found (hg : g.WellFormed) {seeds : List NodeId} {P : NodeId → Prop}
    (hseeds : ∀ m, m ∈ seeds ↔ P m) :
    ∃ nodes, (∀ m, m ∈ seeds ∨ m ∈ nodes ↔ P m ∨ g.Downstream P m) ∧
      ∀ t, Yields (callees (.unbounded g) seeds) t nodes t := by
  obtain ⟨nodes, hmem, hyields⟩ := callClosure_found hg .forward seeds
  have hsame : ∀ s m, Relation.TransGen (g.Adjacent .calls .forward) s m ↔
      Relation.TransGen (g.Linked .calls) s m := fun _ _ => Iff.rfl
  refine ⟨nodes, fun m => ?_, hyields⟩
  rw [hmem]
  simp only [hseeds, hsame, Graph.Downstream]
  tauto

/-! ## accesses and likeness -/

theorem mem_accessors (hg : g.WellFormed) {fields : List NodeId} {m : NodeId} :
    m ∈ accessors g fields ↔ ∃ f ∈ fields, g.Accesses m f := by
  simp only [accessors, NodeId.mem_setOf, List.mem_flatMap, List.mem_append, hg.mem_predecessors,
    Graph.Accesses]

/-- What is compared of a node, if it is a method. -/
def viewOf (g : Graph) (id : NodeId) : Option MethodView :=
  (g.node? id).bind (·.symbol.methodView?)

/-- A method is found under the signature that is compared. -/
theorem find?_of_viewOf (hg : g.WellFormed) {id : NodeId} {v : MethodView}
    (h : viewOf g id = some v) :
    g.find? .method v.signature = some id ∧ v.name = Signature.simpleName v.signature := by
  obtain ⟨⟨_, symbol⟩, hn, hv⟩ := Option.bind_eq_some_iff.mp h
  cases symbol with
  | method signature returnType parameterTypes =>
      obtain rfl := Option.some.inj hv
      refine ⟨hg.find?_method_iff.mpr ⟨returnType, parameterTypes, ?_⟩, rfl⟩
      rw [hn, ← (hg.node?_iff.mp hn).2]
  | file _ _ | type _ _ | field _ _ => contradiction

theorem exists_viewOf (hg : g.WellFormed) {signature : String} {id : NodeId}
    (h : g.find? .method signature = some id) :
    ∃ v, viewOf g id = some v ∧ v.signature = signature := by
  obtain ⟨returnType, parameterTypes, hn⟩ := hg.find?_method_iff.mp h
  exact ⟨_, by rw [viewOf, hn]; rfl, rfl⟩

/-- A likeness that tells methods of one name apart by signature finds the overloads. -/
theorem mem_similar (hg : g.WellFormed) {like : MethodView → MethodView → Bool}
    (hlike : ∀ v w, v.name = Signature.simpleName v.signature → v.name = w.name →
      (like v w = true ↔ v.signature ≠ w.signature))
    {methods : List NodeId} {c : NodeId} :
    c ∈ similar g like methods ↔ ∃ m ∈ methods, g.Overloads c m := by
  rw [similar, NodeId.mem_setOf, List.mem_flatMap]
  refine exists_congr fun m => and_congr_right fun _ => ?_
  cases hw : viewOf g m with
  | none =>
      have hview := hw
      rw [viewOf] at hview
      simp only [hview, List.not_mem_nil, false_iff]
      rintro ⟨s, t, hs, ht, -⟩
      obtain ⟨w, hsome, -⟩ := exists_viewOf hg ht
      rw [hw] at hsome
      contradiction
  | some w =>
      have hview := hw
      rw [viewOf] at hview
      obtain ⟨hfindm, hnamem⟩ := find?_of_viewOf hg hw
      simp only [hview, List.mem_filter]
      constructor
      · rintro ⟨hnamed, hany⟩
        obtain ⟨v, hv, hvw⟩ := (Option.any_eq_true _ _).mp hany
        obtain ⟨hfindc, hnamec⟩ := find?_of_viewOf hg hv
        obtain ⟨s, hs, hname⟩ := hg.mem_methodsNamed.mp hnamed
        obtain rfl := hg.key_unique hs hfindc
        refine ⟨v.signature, w.signature, hfindc, hfindm, hname.trans hnamem, ?_⟩
        exact (hlike v w hnamec (hnamec.trans hname)).mp hvw
      · rintro ⟨s, t, hs, ht, hname, hne⟩
        obtain ⟨v, hv, rfl⟩ := exists_viewOf hg hs
        obtain rfl := hg.key_unique ht hfindm
        have hnamec := (find?_of_viewOf hg hv).2
        have hsame : v.name = w.name := hnamec.trans (hname.trans hnamem.symm)
        refine ⟨hg.mem_methodsNamed.mpr ⟨v.signature, hs, hname.trans hnamem.symm⟩, ?_⟩
        exact (Option.any_eq_true _ _).mpr ⟨v, hv, (hlike v w hnamec hsame).mpr hne⟩

theorem mem_overloads (hg : g.WellFormed) {methods : List NodeId} {c : NodeId} :
    c ∈ similar g MethodView.isOverloadOf methods ↔ ∃ m ∈ methods, g.Overloads c m := by
  refine mem_similar hg fun v w _ hsame => ?_
  simp [MethodView.isOverloadOf, hsame]

/-- A variant is no less than an overload, since every signature shows its simple name. -/
theorem mem_variants (hg : g.WellFormed) {methods : List NodeId} {c : NodeId} :
    c ∈ similar g MethodView.isVariantOf methods ↔ ∃ m ∈ methods, g.Overloads c m := by
  refine mem_similar hg fun v w hname hsame => ?_
  have hshows : Text.contains v.signature w.name = true := by
    rw [← hsame, hname]
    exact Text.contains_upTo '(' v.signature
  simp [MethodView.isVariantOf, MethodView.isOverloadOf, hsame, hshows]

/-! ## reports -/

/-- What a report on a type is assembled from, when its files are those that declare the affected
methods or the type. -/
def selection (g : Graph) (type : NodeId) (chain fields : List NodeId) : Selection where
  files := NodeId.setOf (filesOf g chain ++ g.declaringFiles type)
  chain := HashSet.ofList chain
  fields := HashSet.ofList fields
  targets := [type]

@[simp] theorem mem_selection_chain {type : NodeId} {chain fields : List NodeId} {m : NodeId} :
    m ∈ (selection g type chain fields).chain ↔ m ∈ chain := by
  simp [selection]

@[simp] theorem mem_selection_fields {type : NodeId} {chain fields : List NodeId} {f : NodeId} :
    f ∈ (selection g type chain fields).fields ↔ f ∈ fields := by
  simp [selection]

theorem mem_selection_files {type : NodeId} {chain fields : List NodeId} {F : NodeId} :
    F ∈ (selection g type chain fields).files ↔
      (∃ m ∈ chain, ∃ T ∈ g.declaringTypes m, F ∈ g.declaringFiles T) ∨
        F ∈ g.declaringFiles type := by
  simp [selection, filesOf]

/-- No declaration of an affected method is left out. -/
theorem selection_covers (hg : g.WellFormed) (type : NodeId) (chain fields : List NodeId) :
    (selection g type chain fields).Covers g := by
  intro F T m hFT hTm hm
  obtain ⟨-, -, hmethod⟩ := hg.isKind_of_contains_contains hFT hTm
  refine mem_selection_files.mpr (.inl ⟨m, mem_selection_chain.mp hm, T, ?_, ?_⟩)
  · exact (hg.mem_declaringTypes_method hmethod).mpr hTm
  · exact hg.mem_declaringFiles.mpr hFT

theorem selection_files_isKind (hg : g.WellFormed) {type : NodeId} (htype : g.IsKind .type type)
    (chain fields : List NodeId) :
    ∀ F ∈ (selection g type chain fields).files, g.IsKind .file F := by
  intro F hF
  rcases mem_selection_files.mp hF with ⟨m, -, T, hT, hF⟩ | hF
  · exact hg.isKind_of_contains_type (hg.mem_declaringFiles.mp hF)
      (hg.isKind_of_mem_declaringTypes hT)
  · exact hg.isKind_of_contains_type (hg.mem_declaringFiles.mp hF) htype

/-- The members of a report are the affected methods, in all places that declare them. -/
theorem mem_memberKeys_selection (hg : g.WellFormed) {type : NodeId} {chain fields : List NodeId}
    {P : NodeId → Prop} (hchain : ∀ m, m ∈ chain ↔ P m) {path typeName signature : String} :
    (path, typeName, signature) ∈ memberKeys (assemble g (selection g type chain fields)) ↔
      ∃ F T m, g.find? .file path = some F ∧ g.find? .type typeName = some T ∧
        g.find? .method signature = some m ∧ g.Linked .contains F T ∧ g.Linked .contains T m ∧
        P m := by
  simp only [mem_memberKeys hg (selection_covers hg type chain fields), mem_selection_chain, hchain]

/-- A class has an entry in all files that contain it. -/
theorem exists_entry_selection (hg : g.WellFormed) {type file : NodeId}
    (chain fields : List NodeId) (hlink : g.Linked .contains file type) :
    ∃ f ∈ assemble g (selection g type chain fields), f.path = Assembly.keyOf g file ∧
      ∃ t ∈ f.types, t.name = Assembly.nameOf g type := by
  have hfile : file ∈ (selection g type chain fields).files :=
    mem_selection_files.mpr (.inr (hg.mem_declaringFiles.mpr hlink))
  obtain ⟨f, hf, hpath, t, ht, hname, -⟩ :=
    exists_mem_assemble hg hfile hlink fun _ _ => List.mem_singleton_self type
  exact ⟨f, hf, hpath, t, ht, hname⟩

end

end Query

end Ripple
