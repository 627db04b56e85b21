import Ripple.Proofs.Impact.Class

/-!
# Ripple.Proofs.Impact.Answer

The failures of the questions, and the lists that flat questions answer with.

A question that is never cancelled (`Scope.capped`) can fail for two reasons only: its target is not
there (`memberFailure`, `keyFailure`), or it finds nothing.  Which of them it is depends on the keys
of the graph and not on the cap.  A flat question that finds its target looks for methods with a
property that is said with edges only, and lists those that the cap leaves (`listing`).
-/

namespace Ripple

open Closure (cut exceeds)

namespace Query

variable {g : Graph}

/-! ## targets that are not there -/

/-- How a question about the methods of a name begins: the name is checked, and there must be
one. -/
def withMethods (g : Graph) (methodName : String) (k : List NodeId → Query α) : Query α := do
  require "methodName" methodName
  let seeds := g.methodsNamed methodName
  if seeds.isEmpty then notFound s!"method {Text.quote methodName} not found"
  k seeds

theorem withMethods_of_found {methodName : String}
    (h : Text.isBlank methodName = false ∧ g.methodsNamed methodName ≠ [])
    (k : List NodeId → Query α) :
    withMethods g methodName k = k (g.methodsNamed methodName) := by
  simp [withMethods, require, h.1, h.2]

theorem withMethods_of_absent {methodName : String}
    (h : ¬ (Text.isBlank methodName = false ∧ g.methodsNamed methodName ≠ []))
    (k : List NodeId → Query α) :
    withMethods g methodName k =
      throw (keyFailure "methodName" methodName s!"method {Text.quote methodName} not found") := by
  unfold withMethods require keyFailure
  cases hname : Text.isBlank methodName with
  | true => rfl
  | false =>
      have hempty : (g.methodsNamed methodName).isEmpty = true := by simpa [hname] using h
      simp only [hempty]
      rfl

/-! ## flat questions -/

/-- How a question for callers or callees ends: what was found is listed, unless it is nothing. -/
def listFound (s : Scope) (nothing : String) (found : List NodeId) : Query MethodList := do
  if found.isEmpty then notFound nothing
  return ⟨describe s.graph found, (← get).truncated⟩

/-- What a flat question answers when it found some methods: those that the cap leaves, and a
failure if there are none. -/
def listing (g : Graph) (cap : Nat) (nothing : String) (found : List NodeId) :
    Except Failure MethodList :=
  if found.isEmpty then .error (.coded Code.notFound nothing)
  else .ok ⟨describe g (cut cap found), exceeds cap found⟩

/-- What a closure leaves under a cap is listed. -/
theorem answer_listFound {q : Query (List NodeId)} {cap : Nat} {nothing : String}
    {found : List NodeId} (h : Yields q false (cut cap found) (exceeds cap found)) :
    (q >>= listFound (.capped g cap) nothing).answer = listing g cap nothing found := by
  obtain ⟨polls, hq⟩ := h 0
  rw [answer, run_bind_of_ok hq, listFound, Closure.isEmpty_cut, listing]
  cases found with
  | nil => rfl
  | cons m ms => rfl

theorem fieldAccess_eq (s : Scope) (kind : EdgeKind) (what fieldName : String) :
    fieldAccess s kind what fieldName =
      withKey s.graph .field "fieldName" fieldName s!"field {Text.quote fieldName} not found"
        (fun field => do
          let methods := s.graph.predecessors field kind
          if methods.isEmpty then notFound s!"no {what} found for field {Text.quote fieldName}"
          return ⟨describe s.graph methods, false⟩) := rfl

theorem downstreamCallees_eq (s : Scope) (signature : String) :
    downstreamCallees s signature =
      withKey s.graph .method "methodSignature" signature
        s!"method {Text.quote signature} not found"
        (fun method => callees s [method] >>=
          listFound s s!"no downstream callees found for method {Text.quote signature}") := rfl

theorem upstreamCallers_eq (s : Scope) (methodName : String) :
    upstreamCallers s methodName = withMethods s.graph methodName (fun seeds => callers s seeds >>=
      listFound s s!"no upstream callers found for method {Text.quote methodName}") := rfl

/-! ## questions without a target -/

theorem fieldImpact_of_not_located {s : Scope} {fieldName className : String}
    (h : ¬ ∃ field type, Located s.graph .field fieldName className field type) :
    (fieldImpact s fieldName className).answer =
      .error (memberFailure "fieldName" fieldName className
        s!"field {Text.quote fieldName} not found"
        s!"field {Text.quote fieldName} not found in class {Text.quote className}"
        (s.graph.find? .field fieldName).isSome) :=
  answer_of_throw ((fieldImpact_eq s fieldName className).trans (withMember_of_not_located h _))

theorem methodImpact_of_not_located {s : Scope} {signature className : String}
    (h : ¬ ∃ method type, Located s.graph .method signature className method type) :
    (methodImpact s signature className).answer =
      .error (memberFailure "methodSignature" signature className
        s!"method {Text.quote signature} not found"
        s!"method {Text.quote signature} not found in class {Text.quote className}"
        (s.graph.find? .method signature).isSome) :=
  answer_of_throw ((methodImpact_eq s signature className).trans (withMember_of_not_located h _))

theorem classImpact_of_unknown {s : Scope} {className : String}
    (h : ¬ Known s.graph .type className) :
    (classImpact s className).answer =
      .error (keyFailure "className" className s!"class {Text.quote className} not found") :=
  answer_of_throw ((classImpact_eq s className).trans (withKey_of_absent h _))

theorem fieldAccess_of_unknown {s : Scope} {kind : EdgeKind} {what fieldName : String}
    (h : ¬ Known s.graph .field fieldName) :
    (fieldAccess s kind what fieldName).answer =
      .error (keyFailure "fieldName" fieldName s!"field {Text.quote fieldName} not found") :=
  answer_of_throw ((fieldAccess_eq s kind what fieldName).trans (withKey_of_absent h _))

theorem upstreamCallers_of_unknown {s : Scope} {methodName : String}
    (h : ¬ (Text.isBlank methodName = false ∧ s.graph.methodsNamed methodName ≠ [])) :
    (upstreamCallers s methodName).answer =
      .error (keyFailure "methodName" methodName s!"method {Text.quote methodName} not found") :=
  answer_of_throw ((upstreamCallers_eq s methodName).trans (withMethods_of_absent h _))

theorem downstreamCallees_of_unknown {s : Scope} {signature : String}
    (h : ¬ Known s.graph .method signature) :
    (downstreamCallees s signature).answer =
      .error (keyFailure "methodSignature" signature
        s!"method {Text.quote signature} not found") :=
  answer_of_throw ((downstreamCallees_eq s signature).trans (withKey_of_absent h _))

/-! ## questions with a target -/

/-- The methods that access a field in one way are listed under all caps. -/
theorem fieldAccess_answer {s : Scope} {kind : EdgeKind} {what fieldName : String} {field : NodeId}
    (h : Text.isBlank fieldName = false ∧ s.graph.find? .field fieldName = some field) :
    (fieldAccess s kind what fieldName).answer =
      listing s.graph 0 s!"no {what} found for field {Text.quote fieldName}"
        (s.graph.predecessors field kind) := by
  rw [fieldAccess_eq, withKey_of_found h, listing]
  cases s.graph.predecessors field kind with
  | nil => rfl
  | cons m ms => rfl

/-- A question for the callees of a method finds all that it reaches, itself excepted. -/
theorem downstreamCallees_answer (hg : g.WellFormed) {signature : String} {method : NodeId}
    (h : Text.isBlank signature = false ∧ g.find? .method signature = some method) :
    ∃ found, found.Nodup ∧ (∀ m, m ∈ found ↔ m ≠ method ∧ g.Downstream (· = method) m) ∧
      ∀ cap, (downstreamCallees (.capped g cap) signature).answer =
        listing g cap s!"no downstream callees found for method {Text.quote signature}" found := by
  obtain ⟨found, hnodup, hmem, hrun⟩ := callClosure_yields hg .forward [method]
  refine ⟨found, hnodup, ?_, ?_⟩
  · intro m
    rw [hmem]
    simp only [List.mem_singleton, Graph.Downstream]
    rfl
  · intro cap
    rw [downstreamCallees_eq]
    exact (congrArg answer (withKey_of_found h _)).trans (answer_listFound (hrun cap false))

/-- A question for the callers of the methods of a name finds all that reach one of them from
outside. -/
theorem upstreamCallers_answer (hg : g.WellFormed) {methodName : String}
    (h : Text.isBlank methodName = false ∧ g.methodsNamed methodName ≠ []) :
    ∃ found, found.Nodup ∧
      (∀ m, m ∈ found ↔ m ∉ g.methodsNamed methodName ∧
        g.Upstream (· ∈ g.methodsNamed methodName) m) ∧
      ∀ cap, (upstreamCallers (.capped g cap) methodName).answer =
        listing g cap s!"no upstream callers found for method {Text.quote methodName}" found := by
  obtain ⟨found, hnodup, hmem, hrun⟩ :=
    callClosure_yields hg .backward (g.methodsNamed methodName)
  refine ⟨found, hnodup, ?_, ?_⟩
  · intro m
    have hswap : ∀ s, Relation.TransGen (g.Adjacent .calls .backward) s m ↔
        Relation.TransGen (g.Linked .calls) m s := fun s => Relation.transGen_swap
    simp only [hmem, hswap, Graph.Upstream]
  · intro cap
    rw [upstreamCallers_eq]
    exact (congrArg answer (withMethods_of_found h _)).trans (answer_listFound (hrun cap false))

/-! ## failures -/

/-- A failure that depends on one thing only: whether there is a target. -/
def FailsWith (found : Prop) (nothing absent e : Failure) : Prop :=
  (found ∧ e = nothing) ∨ (¬ found ∧ e = absent)

theorem FailsWith.unique {found found' : Prop} {nothing absent e e' : Failure}
    (hfound : found ↔ found') (h : FailsWith found nothing absent e)
    (h' : FailsWith found' nothing absent e') : e = e' := by
  rcases h with ⟨hf, rfl⟩ | ⟨hf, rfl⟩ <;> rcases h' with ⟨hf', rfl⟩ | ⟨hf', rfl⟩
  · rfl
  · exact absurd (hfound.mp hf) hf'
  · exact absurd (hfound.mpr hf') hf
  · rfl

theorem fieldImpact_error (hg : g.WellFormed) {fieldName className : String} {e : Failure}
    (he : (fieldImpact (.unbounded g) fieldName className).answer = .error e) :
    e = memberFailure "fieldName" fieldName className s!"field {Text.quote fieldName} not found"
      s!"field {Text.quote fieldName} not found in class {Text.quote className}"
      (g.find? .field fieldName).isSome := by
  have hlocated : ¬ ∃ field type, Located g .field fieldName className field type := by
    rw [← fieldImpact_isOk hg]
    rintro ⟨r, hr⟩
    cases hr.symm.trans he
  exact Except.error.inj (he.symm.trans (fieldImpact_of_not_located hlocated))

theorem methodImpact_error (hg : g.WellFormed) {signature className : String} {e : Failure}
    (he : (methodImpact (.unbounded g) signature className).answer = .error e) :
    e = memberFailure "methodSignature" signature className
      s!"method {Text.quote signature} not found"
      s!"method {Text.quote signature} not found in class {Text.quote className}"
      (g.find? .method signature).isSome := by
  have hlocated : ¬ ∃ method type, Located g .method signature className method type := by
    rw [← methodImpact_isOk hg]
    rintro ⟨r, hr⟩
    cases hr.symm.trans he
  exact Except.error.inj (he.symm.trans (methodImpact_of_not_located hlocated))

theorem classImpact_error (hg : g.WellFormed) {className : String} {e : Failure}
    (he : (classImpact (.unbounded g) className).answer = .error e) :
    FailsWith (Known g .type className) (noReferences className)
      (keyFailure "className" className s!"class {Text.quote className} not found") e := by
  by_cases hfound : Known g .type className
  · refine .inl ⟨hfound, ?_⟩
    obtain ⟨type, hname, htype⟩ := hfound
    obtain ⟨-, hanswer⟩ | ⟨-, chain, fields, typed, -, -, -, hanswer⟩ :=
      classImpact_answer hg hname htype
    · exact Except.error.inj (he.symm.trans hanswer)
    · cases he.symm.trans hanswer
  · exact .inr ⟨hfound, Except.error.inj (he.symm.trans (classImpact_of_unknown hfound))⟩

theorem eq_of_listing_error {cap : Nat} {nothing : String} {found : List NodeId} {e : Failure}
    (h : listing g cap nothing found = .error e) : e = .coded Code.notFound nothing := by
  unfold listing at h
  split at h
  · exact (Except.error.inj h).symm
  · contradiction

theorem fieldAccess_error {kind : EdgeKind} {what fieldName : String} {e : Failure}
    (he : (fieldAccess (.unbounded g) kind what fieldName).answer = .error e) :
    FailsWith (Known g .field fieldName)
      (.coded Code.notFound s!"no {what} found for field {Text.quote fieldName}")
      (keyFailure "fieldName" fieldName s!"field {Text.quote fieldName} not found") e := by
  by_cases hfound : Known g .field fieldName
  · refine .inl ⟨hfound, ?_⟩
    obtain ⟨field, h⟩ := hfound
    rw [fieldAccess_answer (s := .unbounded g) h] at he
    exact eq_of_listing_error he
  · exact .inr ⟨hfound, Except.error.inj (he.symm.trans (fieldAccess_of_unknown hfound))⟩

theorem upstreamCallers_error (hg : g.WellFormed) {methodName : String} {e : Failure}
    (he : (upstreamCallers (.unbounded g) methodName).answer = .error e) :
    FailsWith (Text.isBlank methodName = false ∧ g.methodsNamed methodName ≠ [])
      (.coded Code.notFound s!"no upstream callers found for method {Text.quote methodName}")
      (keyFailure "methodName" methodName s!"method {Text.quote methodName} not found") e := by
  by_cases hfound : Text.isBlank methodName = false ∧ g.methodsNamed methodName ≠ []
  · refine .inl ⟨hfound, ?_⟩
    obtain ⟨found, -, -, hanswer⟩ := upstreamCallers_answer hg hfound
    exact eq_of_listing_error ((hanswer 0).symm.trans he)
  · exact .inr ⟨hfound, Except.error.inj (he.symm.trans (upstreamCallers_of_unknown hfound))⟩

theorem downstreamCallees_error (hg : g.WellFormed) {signature : String} {e : Failure}
    (he : (downstreamCallees (.unbounded g) signature).answer = .error e) :
    FailsWith (Known g .method signature)
      (.coded Code.notFound s!"no downstream callees found for method {Text.quote signature}")
      (keyFailure "methodSignature" signature s!"method {Text.quote signature} not found") e := by
  by_cases hfound : Known g .method signature
  · refine .inl ⟨hfound, ?_⟩
    obtain ⟨method, h⟩ := hfound
    obtain ⟨found, -, -, hanswer⟩ := downstreamCallees_answer hg h
    exact eq_of_listing_error ((hanswer 0).symm.trans he)
  · exact .inr ⟨hfound, Except.error.inj (he.symm.trans (downstreamCallees_of_unknown hfound))⟩

end Query

end Ripple
