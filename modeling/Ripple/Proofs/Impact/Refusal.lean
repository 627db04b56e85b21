import Ripple.Proofs.Impact.Cap

/-!
# Ripple.Proofs.Impact.Refusal

A question that nobody cancels fails only because a text is blank or because there is nothing of the
kind, and its code tells which (`ask_refused`).  A cap makes no difference to that
(`Capped.error_zero`), so the failures are those of the questions without one.
-/

namespace Ripple.Query

variable {g : Graph}

/-- A question is refused: a text is blank, or there is nothing of the kind. -/
def Refused (f : Failure) : Prop :=
  ∃ text, f = .coded Code.notFound text ∨ f = .coded Code.invalidParameter text

theorem refused_notFound (text : String) : Refused (.coded Code.notFound text) := ⟨text, .inl rfl⟩

theorem refused_blank (text : String) : Refused (.coded Code.invalidParameter text) :=
  ⟨text, .inr rfl⟩

theorem refused_keyFailure (parameter key missing : String) :
    Refused (keyFailure parameter key missing) := by
  unfold keyFailure
  split
  · exact refused_blank _
  · exact refused_notFound _

theorem refused_memberFailure (parameter key className missing absent : String) (found : Bool) :
    Refused (memberFailure parameter key className missing absent found) := by
  unfold memberFailure
  split
  · exact refused_blank _
  · split
    · exact refused_blank _
    · exact refused_notFound _

theorem FailsWith.refused {found : Prop} {nothing absent e : Failure}
    (h : FailsWith found nothing absent e) (hnothing : Refused nothing) (habsent : Refused absent) :
    Refused e := by
  obtain ⟨-, rfl⟩ | ⟨-, rfl⟩ := h
  · exact hnothing
  · exact habsent

/-- A failure under a cap is the failure without one. -/
theorem Capped.error_zero {answers : Nat → Except Failure Answer} (h : Capped g answers) {cap : Nat}
    {e : Failure} (he : answers cap = .error e) : answers 0 = .error e := by
  cases h with
  | same h => rw [← h cap, he]
  | reports target sel chain cutOff shrinks maps files h =>
      rw [h cap] at he
      cases he
  | lists found h =>
      rw [h cap] at he
      cases he

theorem answer_of_map_error {q : Query α} {wrap : α → Answer} {e : Failure}
    (h : wrap <$> q.answer = .error e) : q.answer = .error e := by
  cases hanswer : q.answer with
  | error e' =>
      rw [hanswer] at h
      exact congrArg Except.error (Except.error.inj h)
  | ok a =>
      rw [hanswer] at h
      cases h

/-- **Refusals**: a question about a graph that a builder holds fails only with a code for a blank
text or for nothing found. -/
theorem ask_refused (hg : g.Built) {cap : Nat} {q : Question} {e : Failure}
    (h : ask (.capped g cap) q = .error e) : Refused e := by
  have hw := hg.wellFormed
  have hzero : ask (.unbounded g) q = .error e := (ask_capped hw q).error_zero h
  cases q with
  | field fieldName className =>
      rw [fieldImpact_error hw (answer_of_map_error hzero)]
      exact refused_memberFailure _ _ _ _ _ _
  | method signature className =>
      rw [methodImpact_error hw (answer_of_map_error hzero)]
      exact refused_memberFailure _ _ _ _ _ _
  | «class» className =>
      exact (classImpact_error hw (answer_of_map_error hzero)).refused (refused_notFound _)
        (refused_keyFailure _ _ _)
  | writers fieldName | readers fieldName =>
      exact (fieldAccess_error (answer_of_map_error hzero)).refused (refused_notFound _)
        (refused_keyFailure _ _ _)
  | upstream methodName =>
      exact (upstreamCallers_error hw (answer_of_map_error hzero)).refused (refused_notFound _)
        (refused_keyFailure _ _ _)
  | downstream signature =>
      exact (downstreamCallees_error hw (answer_of_map_error hzero)).refused (refused_notFound _)
        (refused_keyFailure _ _ _)

end Ripple.Query
