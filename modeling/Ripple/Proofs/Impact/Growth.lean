import Ripple.Proofs.Graph.Growth
import Ripple.Proofs.Impact.Transfer

/-!
# Ripple.Proofs.Impact.Growth

More facts never hide an impact.

A graph that is extended is embedded in its extension by the identity, and the lines of declarations
are carried along (`Extends.carries`): a type keeps its line, since edges are only appended, and a
member can only move up.  So all that was listed is still listed (`ask_after_survives`).

Only a question about a class may go from an answer to a failure: when what referred to the class
becomes part of it, nothing outside refers to it any more.
-/

namespace Ripple

namespace Graph.Extends

variable {g g' : Graph}

theorem embeds (h : g.Extends g') : g.Embeds id g' where
  node := h.node
  link kind a b line hlink := by
    obtain ⟨e, he, hedge⟩ := hlink
    exact ⟨e, Array.mem_toList_iff.mp (h.edges.subset (Array.mem_toList_iff.mpr he)), hedge⟩

/-- What leaves a node stands before what is appended. -/
theorem outgoing (h : g.Extends g') (hg : g.WellFormed) (hg' : g'.WellFormed) (id : NodeId)
    (kind : EdgeKind) : g.outgoing id kind <+: g'.outgoing id kind := by
  rw [hg.outgoing_eq, hg'.outgoing_eq]
  exact h.edges.filter _

/-- Types keep their lines, and members move up if at all. -/
theorem carries (h : g.Extends g') (hg : g.WellFormed) (hg' : g'.WellFormed) :
    g.Carries (fun line line' => line' ≤ line) id g' where
  toEmbeds := h.embeds
  first F T line _ hline := by
    obtain ⟨more, hmore⟩ := h.outgoing hg hg' F .contains
    obtain ⟨e, he, rfl⟩ := Option.map_eq_some_iff.mp hline
    rw [Assembly.firstLine?, id, id, ← hmore, List.find?_append, he]
    rfl
  least T m line hleast := by
    have hlink := h.embeds.link _ _ _ _ hleast.1
    obtain ⟨line', hleast'⟩ := Assembly.exists_isLeast_line hg' ⟨line, hlink⟩
    exact ⟨line', hleast', hleast'.2 hlink⟩

end Graph.Extends

/-- All that an answer lists is still listed in another: members with their references, fields of
types, and signatures. -/
def Answer.Survives : Answer → Answer → Prop
  | report r, report r' => r.Within (fun line line' => line' ≤ line) r'
  | methods l, methods l' => l.methods.map (·.signature) ⊆ l'.methods.map (·.signature)
  | _, _ => False

namespace Query

variable {g g' : Graph}

theorem MapsList.signatures_subset {φ : NodeId → NodeId} (h : g.Embeds φ g') {l l' : MethodList}
    (hl : MapsList φ g g' l l') :
    l.methods.map (·.signature) ⊆ l'.methods.map (·.signature) := by
  obtain ⟨found, found', ⟨-, hmethods, rfl⟩, ⟨-, hmethods', rfl⟩, hmaps⟩ := hl
  intro signature hsignature
  obtain ⟨e, he, rfl⟩ := List.mem_map.mp hsignature
  obtain ⟨m, hm, path, -, rfl⟩ := (mem_describe hmethods).mp he
  obtain ⟨path', hpath'⟩ := exists_mem_pathsOf g' (φ m)
  have hentry := (mem_describe hmethods').mpr ⟨φ m, hmaps m hm, path', hpath', rfl⟩
  exact List.mem_map.mpr ⟨_, hentry, h.keyOf (hmethods m hm)⟩

theorem map_eq_ok {x : Except Failure α} {f : α → Answer} {a : Answer} (h : f <$> x = .ok a) :
    ∃ y, x = .ok y ∧ a = f y := by
  cases x with
  | error e => cases h
  | ok y => exact ⟨y, rfl, (Except.ok.inj h).symm⟩

/-- A question other than about a class stays answered. -/
theorem ask_survives (h : g.Extends g') (hg : g.WellFormed) (hg' : g'.WellFormed) {q : Question}
    (hq : ∀ className, q ≠ .class className) {a : Answer} (ha : ask (.unbounded g) q = .ok a) :
    ∃ a', ask (.unbounded g') q = .ok a' ∧ a.Survives a' := by
  have hlist : ∀ {l l' : MethodList}, MapsList id g g' l l' →
      (Answer.methods l).Survives (.methods l') := fun hl => hl.signatures_subset h.embeds
  cases q with
  | field fieldName className =>
      obtain ⟨r, hr, rfl⟩ := map_eq_ok ha
      obtain ⟨r', hr', hwithin⟩ := fieldImpact_within (h.carries hg hg') hg hg' hr
      exact ⟨.report r', congrArg (Answer.report <$> ·) hr', hwithin⟩
  | method signature className =>
      obtain ⟨r, hr, rfl⟩ := map_eq_ok ha
      obtain ⟨r', hr', hwithin⟩ := methodImpact_within (h.carries hg hg') hg hg' hr
      exact ⟨.report r', congrArg (Answer.report <$> ·) hr', hwithin⟩
  | «class» className => exact absurd rfl (hq className)
  | writers fieldName =>
      obtain ⟨l, hl, rfl⟩ := map_eq_ok ha
      obtain ⟨l', hl', hmaps⟩ := fieldAccess_lists h.embeds hg hg' (.inr rfl) hl
      exact ⟨.methods l', congrArg (Answer.methods <$> ·) hl', hlist hmaps⟩
  | readers fieldName =>
      obtain ⟨l, hl, rfl⟩ := map_eq_ok ha
      obtain ⟨l', hl', hmaps⟩ := fieldAccess_lists h.embeds hg hg' (.inl rfl) hl
      exact ⟨.methods l', congrArg (Answer.methods <$> ·) hl', hlist hmaps⟩
  | upstream methodName =>
      obtain ⟨l, hl, rfl⟩ := map_eq_ok ha
      obtain ⟨l', hl', hmaps⟩ := upstreamCallers_lists h.embeds hg hg' hl
      exact ⟨.methods l', congrArg (Answer.methods <$> ·) hl', hlist hmaps⟩
  | downstream signature =>
      obtain ⟨l, hl, rfl⟩ := map_eq_ok ha
      obtain ⟨l', hl', hmaps⟩ := downstreamCallees_lists h.embeds hg hg' hl
      exact ⟨.methods l', congrArg (Answer.methods <$> ·) hl', hlist hmaps⟩

/-- A question about a class keeps what it lists, if it stays answered. -/
theorem ask_class_survives (h : g.Extends g') (hg : g.WellFormed) (hg' : g'.WellFormed)
    {className : String} {a a' : Answer} (ha : ask (.unbounded g) (.class className) = .ok a)
    (ha' : ask (.unbounded g') (.class className) = .ok a') : a.Survives a' := by
  obtain ⟨r, hr, rfl⟩ := map_eq_ok ha
  obtain ⟨r', hr', rfl⟩ := map_eq_ok ha'
  exact classImpact_within (h.carries hg hg') hg hg' hr hr'

/-- **More facts never hide an impact**: after any operations that do not clear the graph, a
question that was answered is still answered, unless it is about a class; and where there are two
answers, the later one lists all that the earlier one did. -/
theorem ask_after_survives (now : Timestamp) (ops : List Operation) {more : List Operation}
    (hmore : ∀ op ∈ more, op ≠ .clear) (q : Question) :
    let b := Builder.after ops (Builder.new now)
    let b' := Builder.after more b
    ((∀ className, q ≠ .class className) → ∀ a, ask (.unbounded b.graph) q = .ok a →
      ∃ a', ask (.unbounded b'.graph) q = .ok a') ∧
    ∀ a a', ask (.unbounded b.graph) q = .ok a → ask (.unbounded b'.graph) q = .ok a' →
      a.Survives a' := by
  intro b b'
  have hg : b.graph.WellFormed := Graph.Built.wellFormed ⟨now, ops, rfl⟩
  have hg' : b'.graph.WellFormed :=
    Graph.Built.wellFormed ⟨now, ops ++ more, by simp [b', b, Builder.after]⟩
  have hextends : b.graph.Extends b'.graph := Builder.after_extends hmore b
  constructor
  · intro hq a ha
    obtain ⟨a', ha', -⟩ := ask_survives hextends hg hg' hq ha
    exact ⟨a', ha'⟩
  · intro a a' ha ha'
    by_cases hq : ∃ className, q = .class className
    · obtain ⟨className, rfl⟩ := hq
      exact ask_class_survives hextends hg hg' ha ha'
    · obtain ⟨a'', ha'', hsurvives⟩ := ask_survives hextends hg hg' (not_exists.mp hq) ha
      rwa [Except.ok.inj (ha'.symm.trans ha'')]

/-- A further caller, a declaration that moves a method up, and an operation that is refused. -/
def laterFacts : List Operation :=
  [.fact (.method "stop()"), .fact (.link .calls 7 6 9), .fact (.link .contains 2 6 2),
    .fact (.link .reads 1 1 1)]

/-- The report on the field survives the later facts. -/
theorem getters_later_survives :
    (∀ op ∈ laterFacts, op ≠ .clear) ∧ ∃ a a',
      ask (.unbounded Graph.getters) (.field "x" "A") = .ok a ∧
        ask (.unbounded (Builder.after (Graph.gettersFacts ++ laterFacts) (Builder.new 0)).graph)
          (.field "x" "A") = .ok a' ∧ a.Survives a' := by
  have hlater : ∀ op ∈ laterFacts, op ≠ .clear := by simp [laterFacts]
  have hw := Graph.getters_built.wellFormed
  obtain ⟨-, htype, hfield, -⟩ := Graph.getters_find?
  obtain ⟨-, hlink, -⟩ := Graph.getters_linked
  have hlocated := (exists_located_iff hw hw.mem_declaringTypes_field).mpr
    ⟨by decide, by decide, 3, 2, hfield, htype, hlink⟩
  obtain ⟨r, hr⟩ := (fieldImpact_isOk hw).mpr hlocated
  have ha : ask (.unbounded Graph.getters) (.field "x" "A") = .ok (.report r) :=
    congrArg (Answer.report <$> ·) hr
  obtain ⟨hstill, hkept⟩ := ask_after_survives 0 Graph.gettersFacts hlater (.field "x" "A")
  obtain ⟨a', ha'⟩ := hstill (by simp) _ ha
  have hsame : Builder.after (Graph.gettersFacts ++ laterFacts) (Builder.new 0) =
      Builder.after laterFacts (Builder.after Graph.gettersFacts (Builder.new 0)) :=
    List.foldl_append
  exact ⟨hlater, _, a', ha, hsame ▸ ha', hkept _ a' ha ha'⟩

end Query

end Ripple
