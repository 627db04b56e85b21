/-!
# Ripple.Proofs.Steps

Steps that change a state and may fail.

Two steps run one after the other: the second starts in the state, and with the answer, that the
first leaves (`run_bind_of_ok`), and it does not start where the first fails (`run_bind_of_error`).
-/

namespace Ripple

variable {ε σ α β : Type} {x : ExceptT ε (StateM σ) α} {f : α → ExceptT ε (StateM σ) β}

theorem run_bind (x : ExceptT ε (StateM σ) α) (f : α → ExceptT ε (StateM σ) β) (s : σ) :
    (x >>= f).run s = match x.run s with
      | (.ok a, s') => (f a).run s'
      | (.error e, s') => (.error e, s') := by
  change (match x.run s with
    | (r, s') => ExceptT.bindCont f r s') = _
  cases x.run s with
  | mk r s' => cases r <;> rfl

/-- The second step goes on from a first one that succeeds. -/
theorem run_bind_of_ok {s s' : σ} {a : α} (h : x.run s = (.ok a, s')) :
    (x >>= f).run s = (f a).run s' := by
  rw [run_bind, h]

/-- Where the first step fails, so do the two. -/
theorem run_bind_of_error {s s' : σ} {e : ε} (h : x.run s = (.error e, s')) :
    (x >>= f).run s = (.error e, s') := by
  rw [run_bind, h]

/-- Two steps succeed when each of them does. -/
theorem run_bind_eq_ok {s s'' : σ} {y : β} (h : (x >>= f).run s = (.ok y, s'')) :
    ∃ a s', x.run s = (.ok a, s') ∧ (f a).run s' = (.ok y, s'') := by
  rw [run_bind] at h
  rcases hx : x.run s with ⟨e | a, s'⟩
  · rw [hx] at h
    cases h
  · rw [hx] at h
    exact ⟨a, s', rfl, h⟩

end Ripple
