import Ripple.Proofs.Graph.Closure

/-!
# Ripple.Proofs.Graph.Cancel

A search that is polled for cancellation gives up or ends as if it had never been polled.

The polls of a search are numbered, and after `n` visits there have been `n / pollInterval` of them.
So a search that would make `n` visits when nobody cancels it is given up exactly when one of its
first `n / pollInterval` polls tells it to (`run_polled`), whatever the answers to the later ones.
There is no third outcome: what was found before a search is given up is lost.
-/

namespace Ripple

namespace Closure

/-! ## polls -/

/-- Whether one of the polls from `first` on and before `last` tells to give up. -/
def stops (poll : Nat → Bool) (first last : Nat) : Bool :=
  decide (∃ i < last, first ≤ i ∧ poll i = true)

section
variable {poll : Nat → Bool} {a b c n : Nat}

theorem stops_iff : stops poll a b = true ↔ ∃ i < b, a ≤ i ∧ poll i = true :=
  decide_eq_true_iff

theorem stops_zero_iff : stops poll 0 n = true ↔ ∃ i < n, poll i = true := by
  simp [stops_iff]

@[simp] theorem stops_self : stops poll n n = false := by
  simp only [stops, decide_eq_false_iff_not]
  rintro ⟨i, hlt, hle, -⟩
  omega

/-- A stretch of polls is two stretches, one after the other. -/
theorem stops_append (hab : a ≤ b) (hbc : b ≤ c) :
    stops poll a c = (stops poll a b || stops poll b c) := by
  rw [Bool.eq_iff_iff, Bool.or_eq_true, stops_iff, stops_iff, stops_iff]
  constructor
  · rintro ⟨i, hlt, hle, hi⟩
    by_cases hib : i < b
    · exact .inl ⟨i, hib, hle, hi⟩
    · exact .inr ⟨i, hlt, Nat.le_of_not_lt hib, hi⟩
  · rintro (⟨i, hlt, hle, hi⟩ | ⟨i, hlt, hle, hi⟩)
    · exact ⟨i, Nat.lt_of_lt_of_le hlt hbc, hle, hi⟩
    · exact ⟨i, hlt, Nat.le_trans hab hle, hi⟩

/-- Polls that are counted from `n` on. -/
theorem stops_shift : stops (fun k => poll (n + k)) 0 c = stops poll n (n + c) := by
  rw [Bool.eq_iff_iff, stops_zero_iff, stops_iff]
  constructor
  · rintro ⟨k, hk, hpoll⟩
    exact ⟨n + k, by omega, by omega, hpoll⟩
  · rintro ⟨i, hlt, hle, hi⟩
    exact ⟨i - n, by omega, by rwa [Nat.add_sub_cancel' hle]⟩

/-- The poll of one visit, if there is one, is what lies between the polls before and after it. -/
theorem stops_visit : stops poll (n / pollInterval) ((n + 1) / pollInterval) = true ↔
    (n + 1) % pollInterval = 0 ∧ poll ((n + 1) / pollInterval - 1) = true := by
  rw [stops_iff, pollInterval]
  constructor
  · rintro ⟨i, hlt, hle, hi⟩
    have hlast : i = (n + 1) / 256 - 1 := by omega
    exact ⟨by omega, hlast ▸ hi⟩
  · rintro ⟨hmod, hpoll⟩
    exact ⟨(n + 1) / 256 - 1, by omega, by omega, hpoll⟩

end

/-! ## a whole search -/

theorem visits_discover (cap : Nat) (ns fresh : List NodeId) (s : Search) :
    (discover cap ns fresh s).visits = s.visits := by
  fun_induction discover cap ns fresh s with
  | case1 => rfl
  | case2 _ _ _ _ _ ih => exact ih
  | case3 => rfl
  | case4 _ _ _ _ _ _ ih => exact ih

/-- **A polled search** is given up when one of the polls on its way tells it to, and ends as the
search without polls otherwise. -/
theorem run_polled (next : NodeId → List NodeId) (cap fuel : Nat) (s : Search) :
    ∃ t, run next cap (fun _ => false) fuel s = some t ∧ s.visits ≤ t.visits ∧
      ∀ poll, run next cap poll fuel s =
        if stops poll (s.visits / pollInterval) (t.visits / pollInterval) then none
        else some t := by
  induction fuel generalizing s with
  | zero => exact ⟨s, rfl, Nat.le_refl _, fun poll => by simp [run]⟩
  | succ fuel ih =>
      cases hq : s.queue with
      | nil => exact ⟨s, by simp [run, hq], Nat.le_refl _, fun poll => by simp [run, hq]⟩
      | cons c rest =>
          obtain ⟨s₁, hs₁⟩ : ∃ s₁, discover cap (next c) []
              { s with queue := rest, visits := s.visits + 1 } = s₁ := ⟨_, rfl⟩
          have hvisits : s₁.visits = s.visits + 1 := by rw [← hs₁, visits_discover]
          cases htruncated : s₁.truncated with
          | true =>
              refine ⟨s₁, by simp [run, hq, hs₁, htruncated], by omega, ?_⟩
              intro poll
              simp only [run, hq, hs₁, htruncated, if_true, hvisits, stops_visit]
          | false =>
              obtain ⟨t, hrun, hle, hpolled⟩ := ih s₁
              refine ⟨t, by simp [run, hq, hs₁, htruncated, hrun], by omega, ?_⟩
              intro poll
              have hsplit : stops poll (s.visits / pollInterval) (t.visits / pollInterval) =
                  (stops poll (s.visits / pollInterval) ((s.visits + 1) / pollInterval) ||
                    stops poll ((s.visits + 1) / pollInterval) (t.visits / pollInterval)) :=
                stops_append (Nat.div_le_div_right (Nat.le_succ s.visits))
                  (Nat.div_le_div_right (hvisits ▸ hle))
              simp only [run, hq, hs₁, htruncated, Bool.false_eq_true, if_false, hpolled, hvisits,
                hsplit, Bool.or_eq_true, stops_visit, ← ite_or]

end Closure

namespace Graph

open Closure (stops pollInterval)

/-- **A polled closure** of any graph is given up or the whole closure, and which of the two is told
by the polls that the whole closure takes. -/
theorem closure_polled (g : Graph) (direction : Direction) (kind : EdgeKind) (seeds : List NodeId)
    (cap : Nat) :
    ∃ c visits, g.closure direction kind seeds cap (fun _ => false) = some (c, visits) ∧
      ∀ poll, g.closure direction kind seeds cap poll =
        if stops poll 0 (visits / pollInterval) then none else some (c, visits) := by
  obtain ⟨t, hrun, -, hpolled⟩ := Closure.run_polled (g.step kind direction) cap
    (seeds.length + g.edges.size + 1) (Closure.initial seeds)
  refine ⟨⟨t.found.reverse, t.members, t.truncated⟩, t.visits,
    by rw [closure, Closure.search, hrun]; rfl, ?_⟩
  intro poll
  have hstart : (Closure.initial seeds).visits = 0 := by rw [Closure.initial_eq]
  rw [closure, Closure.search, hpolled, hstart, Nat.zero_div]
  split <;> rfl

/-- A closure that is cancelled from the start is given up when its seeds and nodes are as many as
the visits to the first poll. -/
theorem WellFormed.closure_cancelled {g : Graph} (hg : g.WellFormed) {direction : Direction}
    {kind : EdgeKind} {seeds : List NodeId} {c : Closure} {visits : Nat}
    (h : g.closure direction kind seeds 0 (fun _ => false) = some (c, visits)) :
    g.closure direction kind seeds 0 (fun _ => true) = none ↔
      pollInterval ≤ seeds.dedup.length + c.nodes.length := by
  obtain ⟨c', visits', hclosure, hpolled⟩ := g.closure_polled direction kind seeds 0
  obtain ⟨c'', visits'', -, hcount, hsearch⟩ := hg.closure_exact direction kind seeds
  obtain ⟨rfl, rfl⟩ := Prod.mk.inj (Option.some.inj (hclosure.symm.trans h))
  obtain ⟨rfl, rfl⟩ := Prod.mk.inj (Option.some.inj (h.symm.trans (hsearch _ (Nat.le_refl _))))
  rw [hpolled, ite_eq_left_iff, ← hcount]
  have hstops : stops (fun _ => true) 0 (visits' / pollInterval) = true ↔
      pollInterval ≤ visits' := by
    rw [Closure.stops_zero_iff, pollInterval]
    constructor
    · rintro ⟨i, hi, -⟩
      omega
    · intro hle
      exact ⟨0, by omega, rfl⟩
  simp [hstops]

end Graph

end Ripple
