import Ripple.Proofs.Graph.Cancel
import Ripple.Proofs.Impact.Answer

/-!
# Ripple.Proofs.Impact.Cancel

A question that is polled for cancellation fails as a whole or gives the whole answer.

Only closures poll, and a question runs several of them, each going on with the polls where the one
before stopped.  What is said of one closure carries over to all that is put together from closures
(`Interruptible`): how far the polls reach does not depend on their answers, one answer to give up
ends everything, and without one the outcome is the one that nobody cancels.
-/

namespace Ripple

open Closure (stops pollInterval)

namespace Query

variable {g : Graph} {cap : Nat}

/-- The polls of a caller who never cancels. -/
def never : Nat → Bool := fun _ => false

/-- The failure of what is given up. -/
def givenUp : Failure := .root .cancelled

/-! ## computations that can be given up -/

theorem run_bind_of_error {q : Query α} {f : α → Query β} {p : Progress} {e : Failure}
    (h : q.run p = .error e) : (q >>= f).run p = .error e := by
  rw [StateT.run_bind, h]
  rfl

/-- A computation under polls: it does not give up by itself, it takes the polls up to a number that
is told by its start, and it gives up when one of them tells it to. -/
structure Interruptible (q : (Nat → Bool) → Query α) : Prop where
  ne_givenUp : ∀ p, (q never).run p ≠ .error givenUp
  polled : ∀ p, ∃ last, p.polls ≤ last ∧
    (∀ a p', (q never).run p = .ok (a, p') → p'.polls = last) ∧
    ∀ poll, (q poll).run p =
      if stops poll p.polls last then .error givenUp else (q never).run p

namespace Interruptible

/-- A computation that takes no polls. -/
theorem const {q : Query α} (hok : ∀ p a p', q.run p = .ok (a, p') → p'.polls = p.polls)
    (herror : ∀ p, q.run p ≠ .error givenUp) : Interruptible fun _ => q where
  ne_givenUp := herror
  polled p := ⟨p.polls, Nat.le_refl _, hok p, fun poll => by simp⟩

/-- A computation that answers at once. -/
theorem done {q : Query α} {answer : Progress → α} (h : ∀ p, q.run p = .ok (answer p, p)) :
    Interruptible fun _ => q := by
  refine const (fun p a p' hrun => ?_) fun p hrun => ?_
  · rw [h] at hrun
    cases hrun
    rfl
  · rw [h] at hrun
    cases hrun

theorem fail {e : Failure} (he : e ≠ givenUp) :
    Interruptible fun _ => (throw e : Query α) := by
  refine const (fun p a p' h => ?_) fun p h => ?_
  · cases h
  · exact he (Except.error.inj h)

/-- One computation after the other. -/
theorem bind {q : (Nat → Bool) → Query α} {f : (Nat → Bool) → α → Query β} (hq : Interruptible q)
    (hf : ∀ a, Interruptible fun poll => f poll a) :
    Interruptible fun poll => q poll >>= f poll where
  ne_givenUp p := by
    cases h : (q never).run p with
    | error e =>
        have he : e ≠ givenUp := fun heq => hq.ne_givenUp p (heq ▸ h)
        rw [run_bind_of_error h]
        exact fun heq => he (Except.error.inj heq)
    | ok x =>
        rw [run_bind_of_ok h]
        exact (hf x.1).ne_givenUp x.2
  polled p := by
    obtain ⟨mid, hmid, hend, hpolled⟩ := hq.polled p
    cases h : (q never).run p with
    | error e =>
        refine ⟨mid, hmid, ?_, ?_⟩
        · intro b p' hb
          rw [run_bind_of_error h] at hb
          cases hb
        · intro poll
          rw [run_bind_of_error h, StateT.run_bind, hpolled, h]
          split <;> rfl
    | ok x =>
        -- the second computation goes on with the polls where the first one stopped
        obtain ⟨a, p'⟩ := x
        obtain rfl := hend a p' h
        obtain ⟨last, hlast, hend', hpolled'⟩ := (hf a).polled p'
        refine ⟨last, Nat.le_trans hmid hlast, ?_, ?_⟩
        · rw [run_bind_of_ok h]
          exact hend'
        · intro poll
          rw [run_bind_of_ok h, Closure.stops_append hmid hlast, StateT.run_bind, hpolled, h]
          cases hstop : stops poll p.polls p'.polls with
          | true => rfl
          | false =>
              rw [Bool.false_or, ← hpolled']
              rfl

theorem ite {c : Bool} {q q' : (Nat → Bool) → Query α} (hq : Interruptible q)
    (hq' : Interruptible q') : Interruptible fun poll => if c = true then q poll else q' poll := by
  cases c with
  | true => exact hq
  | false => exact hq'

end Interruptible

theorem notFound_ne_givenUp (text : String) : Failure.coded Code.notFound text ≠ givenUp := by
  simp [givenUp]

/-- **A closure** gives up when one of its polls tells it to. -/
theorem callClosure_interruptible (direction : Direction) (seeds : List NodeId) :
    Interruptible fun poll => callClosure ⟨g, cap, poll⟩ direction seeds := by
  obtain ⟨c, visits, hclosure, hpolled⟩ := g.closure_polled direction .calls seeds cap
  have hrun : ∀ p, (callClosure ⟨g, cap, never⟩ direction seeds).run p =
      .ok (c.nodes, ⟨p.polls + visits / pollInterval, p.truncated || c.truncated⟩) := by
    intro p
    simp only [StateT.run, callClosure, never, hclosure]
  constructor
  · intro p
    rw [hrun]
    simp
  · intro p
    refine ⟨p.polls + visits / pollInterval, Nat.le_add_right _ _, ?_, ?_⟩
    · intro a p' h
      rw [hrun] at h
      cases h
      rfl
    · intro poll
      rw [hrun]
      simp only [StateT.run, callClosure, hpolled, Closure.stops_shift]
      cases stops poll p.polls (p.polls + visits / pollInterval) <;> rfl

theorem reportOn_interruptible (target : Target) (type : NodeId)
    (chain fields files : List NodeId) :
    Interruptible fun poll => reportOn ⟨g, cap, poll⟩ target type chain fields files :=
  Interruptible.done (q := reportOn ⟨g, cap, never⟩ target type chain fields files) fun _ => rfl

theorem listFound_interruptible (nothing : String) (found : List NodeId) :
    Interruptible fun poll => listFound ⟨g, cap, poll⟩ nothing found := by
  cases found with
  | nil => exact Interruptible.fail (notFound_ne_givenUp nothing)
  | cons m ms =>
      exact Interruptible.done (q := listFound ⟨g, cap, never⟩ nothing (m :: ms)) fun _ => rfl

/-! ## questions that can be given up -/

theorem keyFailure_ne_givenUp (parameter key missing : String) :
    keyFailure parameter key missing ≠ givenUp := by
  unfold keyFailure givenUp
  split <;> simp

theorem memberFailure_ne_givenUp (parameter key className missing absent : String) (found : Bool) :
    memberFailure parameter key className missing absent found ≠ givenUp := by
  unfold memberFailure givenUp
  split
  · simp
  · split <;> simp

theorem withMember_interruptible {kind : NodeKind}
    {parameter key className missing absent : String}
    {k : (Nat → Bool) → NodeId → NodeId → Query α}
    (hk : ∀ member type, Interruptible fun poll => k poll member type) :
    Interruptible fun poll =>
      withMember g kind parameter key className missing absent (k poll) := by
  by_cases h : ∃ member type, Located g kind key className member type
  · obtain ⟨member, type, h⟩ := h
    simp only [withMember_of_located h]
    exact hk member type
  · simp only [withMember_of_not_located h]
    exact .fail (memberFailure_ne_givenUp _ _ _ _ _ _)

theorem withKey_interruptible {kind : NodeKind} {parameter key missing : String}
    {k : (Nat → Bool) → NodeId → Query α} (hk : ∀ id, Interruptible fun poll => k poll id) :
    Interruptible fun poll => withKey g kind parameter key missing (k poll) := by
  by_cases h : Known g kind key
  · obtain ⟨id, h⟩ := h
    simp only [withKey_of_found h]
    exact hk id
  · simp only [withKey_of_absent h]
    exact .fail (keyFailure_ne_givenUp _ _ _)

theorem withMethods_interruptible {methodName : String} {k : (Nat → Bool) → List NodeId → Query α}
    (hk : ∀ seeds, Interruptible fun poll => k poll seeds) :
    Interruptible fun poll => withMethods g methodName (k poll) := by
  by_cases h : Text.isBlank methodName = false ∧ g.methodsNamed methodName ≠ []
  · simp only [withMethods_of_found h]
    exact hk _
  · simp only [withMethods_of_absent h]
    exact .fail (keyFailure_ne_givenUp _ _ _)

theorem fieldImpact_interruptible (fieldName className : String) :
    Interruptible fun poll => fieldImpact ⟨g, cap, poll⟩ fieldName className := by
  simp only [fieldImpact_eq]
  exact withMember_interruptible fun field type =>
    (callClosure_interruptible .backward _).bind fun directCallers =>
    (callClosure_interruptible .backward _).bind fun variantCallers =>
    reportOn_interruptible _ _ _ _ _

theorem methodImpact_interruptible (signature className : String) :
    Interruptible fun poll => methodImpact ⟨g, cap, poll⟩ signature className := by
  simp only [methodImpact_eq]
  exact withMember_interruptible fun method type =>
    (callClosure_interruptible .backward _).bind fun above =>
    (callClosure_interruptible .forward _).bind fun below =>
    (callClosure_interruptible .backward _).bind fun sharingCallers =>
    (callClosure_interruptible .backward _).bind fun overloadCallers =>
    reportOn_interruptible _ _ _ _ _

theorem classImpact_interruptible (className : String) :
    Interruptible fun poll => classImpact ⟨g, cap, poll⟩ className := by
  simp only [classImpact_eq]
  exact withKey_interruptible fun type =>
    (callClosure_interruptible .backward _).bind fun above =>
    (callClosure_interruptible .forward _).bind fun below =>
    (callClosure_interruptible .backward _).bind fun accessCallers =>
    (callClosure_interruptible .backward _).bind fun typedCallers =>
    (callClosure_interruptible .backward _).bind fun overloadCallers =>
    .ite (.fail (notFound_ne_givenUp _)) (reportOn_interruptible _ _ _ _ _)

theorem fieldAccess_interruptible (kind : EdgeKind) (what fieldName : String) :
    Interruptible fun poll => fieldAccess ⟨g, cap, poll⟩ kind what fieldName := by
  simp only [fieldAccess_eq]
  exact withKey_interruptible fun field =>
    .ite (.fail (notFound_ne_givenUp _)) (.done fun _ => rfl)

theorem upstreamCallers_interruptible (methodName : String) :
    Interruptible fun poll => upstreamCallers ⟨g, cap, poll⟩ methodName := by
  simp only [upstreamCallers_eq]
  exact withMethods_interruptible fun seeds =>
    (callClosure_interruptible .backward _).bind fun found => listFound_interruptible _ found

theorem downstreamCallees_interruptible (signature : String) :
    Interruptible fun poll => downstreamCallees ⟨g, cap, poll⟩ signature := by
  simp only [downstreamCallees_eq]
  exact withKey_interruptible fun method =>
    (callClosure_interruptible .forward _).bind fun found => listFound_interruptible _ found

/-! ## answers -/

/-- An answer under polls, seen from outside: it is the one that nobody cancels, or a failure that
tells that it was given up, and a number of polls decides between the two. -/
structure WholeOrNothing (answers : (Nat → Bool) → Except Failure α) : Prop where
  ne_givenUp : answers never ≠ .error givenUp
  polled : ∃ polls, ∀ poll, answers poll =
    if ∃ i < polls, poll i = true then .error givenUp else answers never

theorem Interruptible.wholeOrNothing {q : (Nat → Bool) → Query α} (h : Interruptible q) :
    WholeOrNothing fun poll => (q poll).answer where
  ne_givenUp hanswer := h.ne_givenUp ⟨0, false⟩ (answer_eq_error.mp hanswer)
  polled := by
    obtain ⟨last, -, -, hpolled⟩ := h.polled ⟨0, false⟩
    refine ⟨last, fun poll => ?_⟩
    have hrun := hpolled poll
    simp only [Closure.stops_zero_iff] at hrun
    by_cases hstop : ∃ i < last, poll i = true
    · rw [if_pos hstop] at hrun ⊢
      exact answer_eq_error.mpr hrun
    · rw [if_neg hstop] at hrun ⊢
      rw [answer, hrun, answer]

theorem WholeOrNothing.map {answers : (Nat → Bool) → Except Failure α} (h : WholeOrNothing answers)
    (wrap : α → β) : WholeOrNothing fun poll => wrap <$> answers poll where
  ne_givenUp := by
    have hne := h.ne_givenUp
    cases hanswer : answers never with
    | error e =>
        rw [hanswer] at hne
        exact fun heq => hne (congrArg _ (Except.error.inj heq))
    | ok a => exact nofun
  polled := by
    obtain ⟨polls, hpolled⟩ := h.polled
    refine ⟨polls, fun poll => ?_⟩
    rw [hpolled poll]
    split <;> rfl

theorem ask_wholeOrNothing (g : Graph) (cap : Nat) (q : Question) :
    WholeOrNothing fun poll => ask ⟨g, cap, poll⟩ q := by
  cases q with
  | field fieldName className =>
      exact (fieldImpact_interruptible fieldName className).wholeOrNothing.map Answer.report
  | method signature className =>
      exact (methodImpact_interruptible signature className).wholeOrNothing.map Answer.report
  | «class» className =>
      exact (classImpact_interruptible className).wholeOrNothing.map Answer.report
  | writers fieldName =>
      exact (fieldAccess_interruptible .writes _ fieldName).wholeOrNothing.map Answer.methods
  | readers fieldName =>
      exact (fieldAccess_interruptible .reads _ fieldName).wholeOrNothing.map Answer.methods
  | upstream methodName =>
      exact (upstreamCallers_interruptible methodName).wholeOrNothing.map Answer.methods
  | downstream signature =>
      exact (downstreamCallees_interruptible signature).wholeOrNothing.map Answer.methods

/-- **All or nothing**: a closure of any graph and any question about it, under any cap and whatever
the answers to the polls, either fails as given up or has the outcome that nobody cancels, and it
fails exactly when one of the polls that it takes tells it to.  A closure without a cap of a graph
that a builder holds, cancelled from the start, fails exactly when its distinct seeds and its nodes
are 256 or more. -/
theorem cancelled_or_whole (g : Graph) (cap : Nat) :
    (∀ direction kind seeds, ∃ c visits,
      g.closure direction kind seeds cap (fun _ => false) = some (c, visits) ∧
        ∀ poll, g.closure direction kind seeds cap poll =
          if ∃ i < visits / 256, poll i = true then none else some (c, visits)) ∧
    (∀ q, ask (.capped g cap) q ≠ .error (.root .cancelled) ∧
      ∃ polls, ∀ poll, ask ⟨g, cap, poll⟩ q =
        if ∃ i < polls, poll i = true then .error (.root .cancelled)
        else ask (.capped g cap) q) ∧
    (g.Built → ∀ direction kind seeds, ∃ c visits,
      g.closure direction kind seeds 0 (fun _ => false) = some (c, visits) ∧
        (g.closure direction kind seeds 0 (fun _ => true) = none ↔
          256 ≤ seeds.dedup.length + c.nodes.length)) := by
  refine ⟨?_, ?_, ?_⟩
  · intro direction kind seeds
    obtain ⟨c, visits, hclosure, hpolled⟩ := g.closure_polled direction kind seeds cap
    refine ⟨c, visits, hclosure, fun poll => ?_⟩
    simp only [hpolled, Closure.stops_zero_iff, pollInterval]
  · intro q
    obtain ⟨hne, polls, hpolled⟩ := ask_wholeOrNothing g cap q
    exact ⟨hne, polls, hpolled⟩
  · intro hg direction kind seeds
    obtain ⟨c, visits, hclosure, -⟩ := g.closure_polled direction kind seeds 0
    exact ⟨c, visits, hclosure, hg.wellFormed.closure_cancelled hclosure⟩

/-- Numbers that stand for no node of a small graph. -/
def strangers (n : Nat) : List NodeId := (List.range n).map fun i : Nat => (i : Int) + 100

theorem le_of_mem_strangers {n : Nat} {x : Int} (h : x ∈ strangers n) : 100 ≤ x := by
  obtain ⟨i, -, rfl⟩ := List.mem_map.mp h
  omega

theorem length_dedup_strangers (n : Nat) : (5 :: strangers n).dedup.length = n + 1 := by
  have hnodup : (5 :: strangers n).Nodup := by
    refine List.nodup_cons.mpr ⟨fun h => absurd (le_of_mem_strangers h) (by decide), ?_⟩
    refine List.nodup_range.map fun i j hij => ?_
    have hij : (i : Int) + 100 = j + 100 := hij
    omega
  rw [hnodup.dedup, List.length_cons, strangers, List.length_map, List.length_range]

/-- The overload of the getter has one caller.  With 254 strangers beside it as seeds its closure
has 256 visits, and is given up at the last; with one stranger less it is not. -/
theorem getters_cancelled :
    Graph.getters.Built ∧
      Graph.getters.closure .backward .calls (5 :: strangers 254) 0 (fun _ => true) = none ∧
      Graph.getters.closure .backward .calls (5 :: strangers 253) 0 (fun _ => true) ≠ none := by
  have hbuilt := Graph.getters_built
  have hvisits : ∀ n,
      Graph.getters.closure .backward .calls (5 :: strangers n) 0 (fun _ => true) = none ↔
        256 ≤ n + 1 + 1 := by
    intro n
    have hout : 6 ∉ 5 :: strangers n := by
      rw [List.mem_cons, not_or]
      exact ⟨by decide, fun h => absurd (le_of_mem_strangers h) (by decide)⟩
    obtain ⟨c, visits, hc, -, hsearch⟩ :=
      hbuilt.wellFormed.closure_exact .backward .calls (5 :: strangers n)
    obtain ⟨c', visits', hclosure, hlong⟩ :=
      (cancelled_or_whole Graph.getters 0).2.2 hbuilt .backward .calls (5 :: strangers n)
    obtain ⟨rfl, -⟩ :=
      Prod.mk.inj (Option.some.inj (hclosure.symm.trans (hsearch _ (Nat.le_refl _))))
    rwa [length_dedup_strangers, Graph.getters_callers hc List.mem_cons_self hout] at hlong
  exact ⟨hbuilt, (hvisits 254).mpr (by decide), fun h => absurd ((hvisits 253).mp h) (by decide)⟩

end Query

end Ripple
