import Ripple.Proofs.Impact.Answer
import Ripple.Proofs.Impact.Containment

/-!
# Ripple.Proofs.Impact.Cap

What a cap does to an answer.

The affected methods of a full question are put together from closures, and a cap cuts each of them.
Seen as a function of the cap such a list `Shrinks`: it loses methods, and only under a cap that the
answer tells of.  Whether a question fails is decided by lists that a cap cannot empty, so there are
three ways for an answer to depend on its cap (`Capped`): not at all, as a report on a selection
that shrinks, or as a list that is cut.  In all three the answer under a cap is part of the answer
without one (`ask_capped_within`).
-/

namespace Ripple

open Closure (cut exceeds)

/-! ## comparing answers -/

/-- Whether an answer tells that a cap was hit. -/
def Answer.truncated : Answer → Bool
  | report r => r.truncated
  | methods l => l.truncated

/-- All that an answer lists is listed in another, at the same lines. -/
def Answer.Within : Answer → Answer → Prop
  | report r, report r' => r.Within Eq r'
  | methods l, methods l' => l.methods ⊆ l'.methods
  | _, _ => False

theorem MemberEntry.Within.refl (e : MemberEntry) : e.Within Eq e :=
  ⟨rfl, rfl, rfl, List.Subset.refl _, List.Subset.refl _, List.Subset.refl _⟩

theorem TypeEntry.Within.refl (t : TypeEntry) : t.Within Eq t :=
  ⟨rfl, rfl, List.Subset.refl _, fun e he => ⟨e, he, .refl e⟩⟩

theorem FilesWithin.refl (files : List FileEntry) : FilesWithin Eq files files :=
  fun f hf => ⟨f, hf, rfl, rfl, fun t ht => ⟨t, ht, .refl t⟩⟩

theorem Answer.Within.refl (a : Answer) : a.Within a := by
  cases a with
  | report r => exact ⟨rfl, .refl r.files⟩
  | methods l => exact List.Subset.refl l.methods

namespace Query

variable {g : Graph}

theorem describe_subset {methods methods' : List NodeId} (h : methods ⊆ methods') :
    describe g methods ⊆ describe g methods' := by
  intro e he
  simp only [describe, List.mem_mergeSort, List.mem_flatMap] at he ⊢
  obtain ⟨m, hm, he⟩ := he
  exact ⟨m, h hm, he⟩

/-! ## lists that shrink -/

/-- What a cap can do to some methods: it takes methods away, and none that it does not tell of. -/
structure Shrinks (methods : Nat → List NodeId) (cutOff : Nat → Bool) : Prop where
  subset : ∀ cap, methods cap ⊆ methods 0
  whole : ∀ cap, cutOff cap = false → methods cap = methods 0
  unbounded : cutOff 0 = false

namespace Shrinks

variable {methods : Nat → List NodeId} {cutOff : Nat → Bool}

theorem const (l : List NodeId) : Shrinks (fun _ => l) (fun _ => false) where
  subset _ := List.Subset.refl l
  whole _ _ := rfl
  unbounded := rfl

theorem append (h : Shrinks methods cutOff) (l : List NodeId) :
    Shrinks (fun cap => methods cap ++ l) cutOff where
  subset cap := List.append_subset.mpr
    ⟨List.subset_append_of_subset_left l (h.subset cap), List.subset_append_right _ l⟩
  whole cap hcap := congrArg (· ++ l) (h.whole cap hcap)
  unbounded := h.unbounded

theorem append_cut (h : Shrinks methods cutOff) (l : List NodeId) :
    Shrinks (fun cap => methods cap ++ cut cap l) (fun cap => cutOff cap || exceeds cap l) where
  subset cap := List.append_subset.mpr
    ⟨List.subset_append_of_subset_left _ (h.subset cap),
      List.subset_append_of_subset_right _ (Closure.cut_subset cap l)⟩
  whole cap hcap := by
    obtain ⟨hcap, hl⟩ := Bool.or_eq_false_iff.mp hcap
    rw [h.whole cap hcap, Closure.cut_of_not_exceeds hl, Closure.cut_zero]
  unbounded := by rw [h.unbounded, Closure.exceeds_zero]; rfl

theorem setOf (h : Shrinks methods cutOff) :
    Shrinks (fun cap => NodeId.setOf (methods cap)) cutOff where
  subset cap _ hm := NodeId.mem_setOf.mpr (h.subset cap (NodeId.mem_setOf.mp hm))
  whole cap hcap := congrArg NodeId.setOf (h.whole cap hcap)
  unbounded := h.unbounded

end Shrinks

/-! ## questions under a cap -/

/-- The ways for an answer to depend on a cap. -/
inductive Capped (g : Graph) (answers : Nat → Except Failure Answer) : Prop where
  | same (h : ∀ cap, answers cap = answers 0)
  | reports (target : Target) (sel : List NodeId → Selection) (chain : Nat → List NodeId)
      (cutOff : Nat → Bool) (shrinks : Shrinks chain cutOff)
      (maps : ∀ cap, (sel (chain cap)).Maps id (sel (chain 0)))
      (files : ∀ l, ∀ F ∈ (sel l).files, g.IsKind .file F)
      (h : ∀ cap, answers cap = .ok (.report ⟨target, assemble g (sel (chain cap)), cutOff cap⟩))
  | lists (found : List NodeId)
      (h : ∀ cap, answers cap = .ok (.methods ⟨describe g (cut cap found), exceeds cap found⟩))

/-- A failure that is the same under all caps. -/
theorem capped_of_error {wrap : α → Answer} {answers : Nat → Except Failure α} {e : Nat → Failure}
    (h : ∀ cap, answers cap = .error (e cap)) (he : ∀ cap, e cap = e 0) :
    Capped g fun cap => wrap <$> answers cap := by
  refine .same fun cap => congrArg (wrap <$> ·) ?_
  rw [h cap, h 0, he cap]

/-- A flat question that closes over calls. -/
theorem capped_of_listing {nothing : String} {found : List NodeId}
    {answers : Nat → Except Failure MethodList}
    (h : ∀ cap, answers cap = listing g cap nothing found) :
    Capped g fun cap => Answer.methods <$> answers cap := by
  cases found with
  | nil => exact capped_of_error h fun cap => rfl
  | cons m ms => exact .lists (m :: ms) fun cap => congrArg (Answer.methods <$> ·) (h cap)

/-- A report on a selection whose affected methods shrink. -/
theorem capped_of_report (target : Target) (sel : List NodeId → Selection)
    {chain : Nat → List NodeId} {cutOff : Nat → Bool} (hchain : Shrinks chain cutOff)
    (hmaps : ∀ cap, (sel (chain cap)).Maps id (sel (chain 0)))
    (hfiles : ∀ l, ∀ F ∈ (sel l).files, g.IsKind .file F) {answers : Nat → Except Failure Report}
    (h : ∀ cap, answers cap = .ok ⟨target, assemble g (sel (chain cap)), cutOff cap⟩) :
    Capped g fun cap => Answer.report <$> answers cap :=
  .reports target sel chain cutOff hchain hmaps hfiles
    fun cap => congrArg (Answer.report <$> ·) (h cap)

/-- A report on a member. -/
theorem capped_of_member (hg : g.WellFormed) {type : NodeId} (htype : g.IsKind .type type)
    (target : Target) (fields : List NodeId) {chain : Nat → List NodeId} {cutOff : Nat → Bool}
    (hchain : Shrinks chain cutOff) {answers : Nat → Except Failure Report}
    (h : ∀ cap, answers cap =
      .ok ⟨target, assemble g (selection g type (chain cap) fields), cutOff cap⟩) :
    Capped g fun cap => Answer.report <$> answers cap := by
  refine capped_of_report target (selection g type · fields) hchain ?_ ?_ h
  · intro cap
    exact selection_maps (.id g) hg hg type (hchain.subset cap) fun _ hf => hf
  · intro l
    exact selection_files_isKind hg htype l fields

theorem ask_field_capped (hg : g.WellFormed) (fieldName className : String) :
    Capped g fun cap => ask (.capped g cap) (.field fieldName className) := by
  by_cases hlocated : ∃ field type, Located g .field fieldName className field type
  · obtain ⟨field, type, h⟩ := hlocated
    let direct := accessors g [field]
    let variants := similar g MethodView.isVariantOf direct
    obtain ⟨above, -, -, hrun⟩ := callClosure_yields hg .backward direct
    obtain ⟨above₁, -, -, hrun₁⟩ := callClosure_yields hg .backward variants
    have hchain := ((((Shrinks.const direct).append_cut above).append variants).append_cut
      above₁).setOf
    refine capped_of_member hg (hg.isKind_of_find? h.type_found)
      ⟨"field", fieldName, className, ""⟩ [field] hchain fun cap => ?_
    rw [fieldImpact_eq]
    exact (congrArg answer (withMember_of_located h _)).trans <| Yields.answer <|
      (hrun cap _).bind <| (hrun₁ cap _).bind reportOn_yields
  · exact capped_of_error (fun cap => fieldImpact_of_not_located hlocated) fun cap => rfl

theorem ask_method_capped (hg : g.WellFormed) (signature className : String) :
    Capped g fun cap => ask (.capped g cap) (.method signature className) := by
  by_cases hlocated : ∃ method type, Located g .method signature className method type
  · obtain ⟨method, type, h⟩ := hlocated
    let fields := NodeId.setOf (g.successors method .reads ++ g.successors method .writes)
    let sharing := accessors g fields
    let overloads := similar g MethodView.isOverloadOf [method]
    obtain ⟨above, -, -, hrun⟩ := callClosure_yields hg .backward [method]
    obtain ⟨below, -, -, hrun₁⟩ := callClosure_yields hg .forward [method]
    obtain ⟨above₂, -, -, hrun₂⟩ := callClosure_yields hg .backward sharing
    obtain ⟨above₃, -, -, hrun₃⟩ := callClosure_yields hg .backward overloads
    have hchain := ((((((Shrinks.const [method]).append_cut above).append_cut below).append
      sharing).append_cut above₂).append overloads).append_cut above₃ |>.setOf
    refine capped_of_member hg (hg.isKind_of_find? h.type_found)
      ⟨"method", Signature.simpleName signature, className, signature⟩ fields hchain fun cap => ?_
    rw [methodImpact_eq]
    exact (congrArg answer (withMember_of_located h _)).trans <| Yields.answer <|
      (hrun cap _).bind <| (hrun₁ cap _).bind <| (hrun₂ cap _).bind <|
      (hrun₃ cap _).bind reportOn_yields
  · exact capped_of_error (fun cap => methodImpact_of_not_located hlocated) fun cap => rfl

/-- A cap leaves one caller at least, so it cannot make a class look unreferenced. -/
theorem ask_class_capped (hg : g.WellFormed) (className : String) :
    Capped g fun cap => ask (.capped g cap) (.class className) := by
  by_cases hfound : Known g .type className
  · obtain ⟨type, h⟩ := hfound
    obtain ⟨above, -, -, hrun⟩ := callClosure_yields hg .backward (g.successors type .contains)
    obtain ⟨below, -, -, hrun₁⟩ := callClosure_yields hg .forward (g.successors type .contains)
    obtain ⟨access, -, -, hrun₂⟩ := callClosure_yields hg .backward (fieldAccessors g type)
    obtain ⟨mentions, -, -, hrun₃⟩ :=
      callClosure_yields hg .backward (g.mentioning .method className)
    obtain ⟨overloads, -, -, hrun₄⟩ := callClosure_yields hg .backward (ownOverloads g type)
    let found (cap : Nat) : ClassClosures :=
      ⟨cut cap above, cut cap below, cut cap access, cut cap mentions, cut cap overloads⟩
    have hanswer (cap : Nat) := classImpact_of_closures (s := .capped g cap) h (found cap)
      (hrun cap _) (hrun₁ cap _) (hrun₂ cap _) (hrun₃ cap _) (hrun₄ cap _)
    have hbarren (cap : Nat) :
        (found cap).isBarren g className = (found 0).isBarren g className := by
      simp [found, ClassClosures.isBarren]
    cases hempty : (found 0).isBarren g className with
    | true =>
        refine capped_of_error (e := fun _ => noReferences className) (fun cap => ?_) fun cap => rfl
        exact (hanswer cap).trans (if_pos ((hbarren cap).trans hempty))
    | false =>
        have hchain := ((((((((Shrinks.const (g.successors type .contains)).append_cut
          above).append_cut below).append (fieldAccessors g type)).append_cut access).append
          (g.mentioning .method className)).append_cut mentions).append
          (ownOverloads g type)).append_cut overloads |>.setOf
        refine capped_of_report ⟨"class", className, className, ""⟩
          (classSelection g type · (classFields g className type) (g.mentioning .field className))
          hchain ?_ ?_ fun cap => ?_
        · intro cap
          exact classSelection_maps (.id g) hg hg type (hchain.subset cap) (fun _ hf => hf)
            fun _ hf => hf
        · intro l
          exact classSelection_files_isKind hg (hg.isKind_of_find? h.2) l _ _
        · exact (hanswer cap).trans (if_neg (by simp [Scope.capped, hbarren cap, hempty]))
  · exact capped_of_error (fun cap => classImpact_of_unknown hfound) fun cap => rfl

theorem ask_upstream_capped (hg : g.WellFormed) (methodName : String) :
    Capped g fun cap => ask (.capped g cap) (.upstream methodName) := by
  by_cases h : Text.isBlank methodName = false ∧ g.methodsNamed methodName ≠ []
  · obtain ⟨found, -, -, hanswer⟩ := upstreamCallers_answer hg h
    exact capped_of_listing hanswer
  · exact capped_of_error (fun cap => upstreamCallers_of_unknown h) fun cap => rfl

theorem ask_downstream_capped (hg : g.WellFormed) (signature : String) :
    Capped g fun cap => ask (.capped g cap) (.downstream signature) := by
  by_cases hfound : Known g .method signature
  · obtain ⟨method, h⟩ := hfound
    obtain ⟨found, -, -, hanswer⟩ := downstreamCallees_answer hg h
    exact capped_of_listing hanswer
  · exact capped_of_error (fun cap => downstreamCallees_of_unknown hfound) fun cap => rfl

theorem ask_capped (hg : g.WellFormed) (q : Question) :
    Capped g fun cap => ask (.capped g cap) q := by
  cases q with
  | field fieldName className => exact ask_field_capped hg fieldName className
  | method signature className => exact ask_method_capped hg signature className
  | «class» className => exact ask_class_capped hg className
  | writers fieldName | readers fieldName => exact .same fun cap => rfl
  | upstream methodName => exact ask_upstream_capped hg methodName
  | downstream signature => exact ask_downstream_capped hg signature

/-- **A capped answer is part of the whole answer**: a cap neither makes a question fail nor lets it
fail in another way.  What is listed under a cap is listed without one, at the same lines and with
all references, and an answer that does not tell of a cut is the whole answer. -/
theorem ask_capped_within (hg : g.Built) (cap : Nat) (q : Question) :
    (∀ e, ask (.capped g cap) q = .error e ↔ ask (.unbounded g) q = .error e) ∧
    ∀ a, ask (.capped g cap) q = .ok a → ∃ a', ask (.unbounded g) q = .ok a' ∧ a.Within a' ∧
      (a.truncated = false → a = a') := by
  have hw := hg.wellFormed
  rw [← Scope.capped_zero]
  cases ask_capped hw q with
  | same h =>
      rw [h cap]
      exact ⟨fun e => Iff.rfl, fun a ha => ⟨a, ha, .refl a, fun _ => rfl⟩⟩
  | reports target sel chain cutOff shrinks maps files h =>
      rw [h cap, h 0]
      refine ⟨by simp, ?_⟩
      rintro a ⟨⟩
      refine ⟨_, rfl, ⟨rfl, Assembly.assemble_within (.id g) hw hw (maps cap) (files _)⟩, ?_⟩
      intro hcut
      have hcut : cutOff cap = false := hcut
      rw [shrinks.whole cap hcut, shrinks.unbounded, hcut]
  | lists found h =>
      rw [h cap, h 0]
      refine ⟨by simp, ?_⟩
      rintro a ⟨⟩
      refine ⟨_, rfl, describe_subset (Closure.cut_subset cap found), ?_⟩
      intro hcut
      have hcut : exceeds cap found = false := hcut
      rw [Closure.cut_of_not_exceeds hcut, hcut, Closure.cut_zero, Closure.exceeds_zero]

/-! ## a list that is cut -/

/-- Three methods, each but the last calling the next. -/
def relayFacts : List Operation :=
  [.fact (.method "first()"), .fact (.method "second()"), .fact (.method "third()"),
    .fact (.link .calls 1 2 1), .fact (.link .calls 2 3 2)]

/-- The graph of these facts. -/
def relay : Graph := (Builder.after relayFacts (Builder.new 0)).graph

section
open Ripple.Graph Builder

theorem relay_eq : relay.find? .method "first()" = some 1 ∧
    relay.edges.toList.map Edge.key = [⟨.calls, 1, 2, 1⟩, ⟨.calls, 2, 3, 2⟩] := by
  simp [relay, relayFacts, after, Operation.perform, ingest, run_map, upsertMethod,
    upsert_run_of_new, link_run, Builder.new, node?_insertNode, find?_insertNode, Text.isBlank,
    Symbol.key, Symbol.kind, Text.isBlankChar, Node.kind, EdgeKind.joins, Edge.key]

end

/-- Of the two methods that the first one reaches, a cap of one leaves one and tells of it. -/
theorem relay_capped_within : relay.Built ∧ ∃ l l',
    ask (.capped relay 1) (.downstream "first()") = .ok (.methods l) ∧ l.truncated = true ∧
      ask (.unbounded relay) (.downstream "first()") = .ok (.methods l') ∧
        l.methods ⊆ l'.methods := by
  obtain ⟨hfirst, hedges⟩ := relay_eq
  have hbuilt : relay.Built := ⟨0, relayFacts, rfl⟩
  have hcalls : relay.Linked .calls 1 2 := ⟨1, Graph.linkedAt_iff_key.mpr (by simp [hedges])⟩
  have hcalls' : relay.Linked .calls 2 3 := ⟨2, Graph.linkedAt_iff_key.mpr (by simp [hedges])⟩
  obtain ⟨found, -, hmem, hanswer⟩ :=
    downstreamCallees_answer hbuilt.wellFormed ⟨by decide, hfirst⟩
  have hsecond : 2 ∈ found := (hmem 2).mpr ⟨by decide, 1, rfl, .single hcalls⟩
  have hthird : 3 ∈ found := (hmem 3).mpr ⟨by decide, 1, rfl, .tail (.single hcalls) hcalls'⟩
  have hexceeds : exceeds 1 found = true := by
    match found, hsecond, hthird with
    | [m], hsecond, hthird =>
        have hsame := (List.mem_singleton.mp hsecond).trans (List.mem_singleton.mp hthird).symm
        exact absurd hsame (by decide)
    | m :: m' :: rest, _, _ => simp [exceeds]
  have hlisted : ask (.capped relay 1) (.downstream "first()") =
      .ok (.methods ⟨describe relay (cut 1 found), true⟩) := by
    refine (congrArg (Answer.methods <$> ·) (hanswer 1)).trans ?_
    rw [listing, if_neg (by simpa using List.ne_nil_of_mem hsecond), hexceeds]
    rfl
  obtain ⟨a', ha', hwithin, -⟩ := (ask_capped_within hbuilt 1 (.downstream "first()")).2 _ hlisted
  cases a' with
  | report r => contradiction
  | methods l' => exact ⟨hbuilt, _, l', hlisted, rfl, ha', hwithin⟩

end Query

end Ripple
