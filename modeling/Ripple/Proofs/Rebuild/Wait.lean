import Ripple.Proofs.Rebuild.History
import Ripple.Rebuild.Wait

/-!
# Ripple.Proofs.Rebuild.Wait

What a caller gets that asks for a rebuild and waits for its end.

The caller moves in three steps, and anything can happen between them.  It waits for the rebuild
that was accepted last, and reads the status as it is in the end; both are its own only as long as
nobody else's request is accepted.  `Attended.returns_own_iff` says that this is exactly the
condition, and `rootStarted_returns_other` is an interleaving in which the caller gets a status that
is still running, and is another rebuild's.
-/

namespace Ripple.Rebuild

/-- A request was accepted. -/
def Event.Accepts : Event → Prop
  | .rescan _ (.ok _) => True
  | _ => False

/-- A caller whose request was accepted, and what has happened since, the latest first. -/
inductive Attended (ix₀ : Indexer) (run : RunId) : List Event → Indexer → Waiter → Prop where
  | accepted : Attended ix₀ run [] ix₀ (.accepted run)
  | elapse {since : List Event} {ix ix' : Indexer} {w : Waiter} {e : Event}
    (h : Attended ix₀ run since ix w) (hstep : Step ix e ix') : Attended ix₀ run (e :: since) ix' w
  | move {since : List Event} {ix : Indexer} {w : Waiter} (h : Attended ix₀ run since ix w) :
    Attended ix₀ run since ix (w.step ix false)

/-- The last word on the rebuild of a request: it is over, and the error is what went wrong with
it. -/
def Call.Final (c : Call) (history : List Event) (status : Status) (error : Option Failure) :
    Prop :=
  status.runId = c.run ∧ error = verdict c.run history ∧
    ((status.phase = .failed ∧ ∃ f, error = some f ∧ f.code = Code.ingestionFailure) ∨
      (status.phase = .completed ∧ ∀ f, error = some f → f.code = Code.internal))

/-! ## histories since a request -/

variable {since history : List Event} {ix₀ ix ix' : Indexer} {run : RunId} {w : Waiter}

theorem latestCall_cons {e : Event} (h : ¬e.Accepts) :
    latestCall (e :: history) = latestCall history := by
  cases e with
  | rescan c answer =>
      cases answer with
      | error f => rfl
      | ok s => exact absurd trivial h
  | status _ | ingest _ _ | conclude _ _ | publish _ | save _ _ | finish _ _ => rfl

theorem Event.Accepts.exists_call {e : Event} (h : e.Accepts) : ∃ c s, e = .rescan c (.ok s) := by
  cases e with
  | rescan c answer =>
      cases answer with
      | error f => exact h.elim
      | ok s => exact ⟨c, s, rfl⟩
  | status _ | ingest _ _ | conclude _ _ | publish _ | save _ _ | finish _ _ => exact h.elim

/-- Without another request accepted, the latest one is as before. -/
theorem latestCall_append (hno : ∀ e ∈ since, ¬e.Accepts) :
    latestCall (since ++ history) = latestCall history := by
  induction since with
  | nil => rfl
  | cons e since ih =>
      rw [List.cons_append, latestCall_cons (hno e List.mem_cons_self)]
      exact ih fun e' h => hno e' (List.mem_cons_of_mem _ h)

/-- With another request accepted, the latest one is among those that came since. -/
theorem exists_latestCall_append (history : List Event) (hsome : ∃ e ∈ since, e.Accepts) :
    ∃ c s, latestCall (since ++ history) = some (c, s) ∧ .rescan c (.ok s) ∈ since := by
  induction since with
  | nil => simp at hsome
  | cons e since ih =>
      by_cases he : e.Accepts
      · obtain ⟨c, s, rfl⟩ := he.exists_call
        exact ⟨c, s, rfl, List.mem_cons_self⟩
      · have hrest : ∃ e' ∈ since, e'.Accepts := by simpa [he] using hsome
        obtain ⟨c, s, hlatest, hmem⟩ := ih hrest
        rw [List.cons_append, latestCall_cons he]
        exact ⟨c, s, hlatest, List.mem_cons_of_mem _ hmem⟩

theorem Attended.trace {start : Indexer} (hstart : Trace start history ix₀)
    (h : Attended ix₀ run since ix w) : Trace start (since ++ history) ix := by
  induction h with
  | accepted => exact hstart
  | elapse _ hstep ih => exact ih.step hstep
  | move _ ih => exact ih

/-! ## a caller that is alone -/

/-- With no rebuild in flight, only an accepted request brings one. -/
theorem Step.flights_eq_nil {e : Event} (hstep : Step ix e ix') (he : ¬e.Accepts)
    (hflights : ix.flights = []) : ix'.flights = [] := by
  cases hstep with
  | rescan c =>
      obtain ⟨f, -, -, hanswer⟩ | ⟨f, -, -, -, hanswer⟩ | ⟨s, -, -, -, hanswer⟩ :=
        ix.receive_cases c
      · rw [hanswer]
        exact hflights
      · rw [hanswer]
        exact hflights
      · rw [hanswer] at he
        exact absurd trivial he
  | status => exact hflights
  | ingest hstage _ | conclude hstage _ | publish hstage | save hstage _ | complete hstage _
  | fail hstage _ => simp [Indexer.stage?, hflights] at hstage

/-- When the rebuild accepted last is over, none is in flight. -/
theorem Sound.flights_eq_nil {a : Account} {c : Call} {s : Status} (h : Sound a ix)
    (hlatest : a.latest = some (c, s)) (hover : ix.isOver c.run = true) : ix.flights = [] := by
  cases h.standing with
  | idle _ hflights | failed _ _ _ _ _ hflights | completed _ _ _ _ _ _ _ hflights => exact hflights
  | running c' s' stage hlatest' hflights =>
      cases hlatest.symm.trans hlatest'
      simp [Indexer.isOver, hflights] at hover

/-- With no rebuild in flight, status and error are the last word on the one accepted last. -/
theorem Sound.final {initial : Graph} {c : Call} {s : Status}
    (h : Sound (account initial history) ix) (hlatest : latestCall history = some (c, s))
    (hflights : ix.flights = []) : c.Final history ix.status ix.lastError := by
  obtain ⟨full, -, hs⟩ := h.opens c s hlatest
  cases h.standing with
  | idle hnone => cases hlatest.symm.trans hnone
  | running _ _ _ _ hflights' => simp [hflights] at hflights'
  | failed c' s' f now hlatest' _ hstatus herror hstage =>
      cases hlatest.symm.trans hlatest'
      obtain ⟨hcode, -, hverdict, -, -⟩ := hstage
      rw [hstatus, herror, hs]
      exact ⟨rfl, hverdict.symm, .inl ⟨rfl, f, rfl, hcode⟩⟩
  | completed c' s' g problem now persistError hlatest' _ hstatus herror hstage =>
      cases hlatest.symm.trans hlatest'
      obtain ⟨-, hverdict, -⟩ := hstage
      rw [hstatus, herror, hs]
      refine ⟨rfl, hverdict.symm, .inr ⟨rfl, ?_⟩⟩
      intro f hf
      obtain ⟨p, -, rfl⟩ := Option.map_eq_some_iff.mp hf
      rfl

/-- Where a caller stands as long as no other request is accepted. -/
def Waiter.Alone (run : RunId) (ix : Indexer) : Waiter → Prop
  | accepted r => r = run
  | waiting target => target = run
  | released reason => reason = none ∧ ix.flights = []
  | returned _ _ => True

/-- A caller that is alone waits for its own rebuild. -/
theorem Attended.alone {store : Store} {persists : Bool} {c : Call} {s : Status}
    (hstart : Trace (.new store persists) (.rescan c (.ok s) :: history) ix₀)
    (h : Attended ix₀ c.run since ix w) (hno : ∀ e ∈ since, ¬e.Accepts) : w.Alone c.run ix := by
  induction h with
  | accepted => rfl
  | @elapse since ix ix' w e h hstep ih =>
      have halone := ih fun e' h => hno e' (List.mem_cons_of_mem _ h)
      cases w with
      | accepted _ | waiting _ | returned _ _ => exact halone
      | released reason =>
          exact ⟨halone.1, hstep.flights_eq_nil (hno e List.mem_cons_self) halone.2⟩
  | @move since ix w h ih =>
      have halone := ih hno
      have hsound := (h.trace hstart).sound
      have hcall : latestCall (since ++ .rescan c (.ok s) :: history) = some (c, s) :=
        latestCall_append hno
      have hlatest : ix.latest = some c.run := by
        rw [hsound.latest_eq, account, hcall]
        rfl
      cases w with
      | accepted r =>
          simp only [Waiter.step, hlatest]
          rfl
      | waiting target =>
          cases halone
          simp only [Waiter.step, Bool.false_eq_true, if_false]
          split
          · next hover => exact ⟨rfl, hsound.flights_eq_nil hcall hover⟩
          · rfl
      | released reason =>
          rw [halone.1]
          trivial
      | returned status error => trivial

/-! ## what the caller gets -/

/-- **Whose status a caller gets**: a caller whose wait is over reads the last word on its own
rebuild exactly when no other request was accepted since its own. -/
theorem Attended.returns_own_iff {store : Store} {persists : Bool} {c : Call} {s : Status}
    {status : Status} {error : Option Failure}
    (hstart : Trace (.new store persists) (.rescan c (.ok s) :: history) ix₀)
    (h : Attended ix₀ c.run since ix (.released none))
    (hfresh : ∀ c' s', .rescan c' (.ok s') ∈ since → c'.run ≠ c.run)
    (hread : Waiter.step ix false (.released none) = .returned status error) :
    c.Final (since ++ .rescan c (.ok s) :: history) status error ↔ ∀ e ∈ since, ¬e.Accepts := by
  cases hread
  have hsound := (h.trace hstart).sound
  constructor
  · rintro ⟨hrun, -, hphase⟩ e he haccepts
    obtain ⟨c', s', hlatest, hmem⟩ :=
      exists_latestCall_append (.rescan c (.ok s) :: history) ⟨e, he, haccepts⟩
    have hidle : ix.status.phase ≠ .idle := by
      obtain ⟨hfailed, -⟩ | ⟨hcompleted, -⟩ := hphase
      · simp [hfailed]
      · simp [hcompleted]
    obtain ⟨c'', s'', hlatest', hrun', -⟩ := hsound.names_call hidle
    cases hlatest.symm.trans hlatest'
    exact hfresh c' s' hmem (hrun'.symm.trans hrun)
  · intro hno
    exact hsound.final (latestCall_append hno) (h.alone hstart hno).2

/-- An indexer that has just accepted its first request. -/
def rootStarted : Indexer := ((Indexer.new .new true).receive (rootCall "mine" 1)).2

theorem rootStarted_trace : Trace (.new .new true)
    [.rescan (rootCall "mine" 1) (.ok (.started "mine" "/" 1))] rootStarted :=
  Trace.start.step (.rescan (rootCall "mine" 1))

/-- A caller that is alone gets the failure of its own rebuild. -/
theorem rootStarted_returns_own :
    ∃ since ix status error, Attended rootStarted "mine" since ix (.released none) ∧
      (∀ c' s', .rescan c' (.ok s') ∈ since → c'.run ≠ "mine") ∧
      Waiter.step ix false (.released none) = .returned status error ∧ status.phase = .failed ∧
      (rootCall "mine" 1).Final
        (since ++ [.rescan (rootCall "mine" 1) (.ok (.started "mine" "/" 1))]) status error := by
  have h₁ : Attended rootStarted "mine" _ _ _ := Attended.accepted.elapse
    (.conclude (show Indexer.stage? _ "mine" = some (.building _) from rfl) (.panicked "oops"))
  have h₂ := h₁.move.elapse (.fail (show Indexer.stage? _ "mine" = some (.broken _) from rfl) 2)
  refine ⟨_, _, _, _, h₂.move, by simp, rfl, rfl, ?_⟩
  refine (h₂.move.returns_own_iff rootStarted_trace (by simp) rfl).mpr ?_
  simp [Event.Accepts]

/-- A request that is accepted after the end of the caller's own rebuild, and before the caller
reads the status, is what the caller is told about: a rebuild that is not its own and still
running, with no error. -/
theorem rootStarted_returns_other :
    ∃ since ix status error, Attended rootStarted "mine" since ix (.returned status error) ∧
      status.runId = "other" ∧ status.phase = .running ∧ error = none := by
  have h₁ : Attended rootStarted "mine" _ _ _ := Attended.accepted.elapse
    (.conclude (show Indexer.stage? _ "mine" = some (.building _) from rfl) .done)
  have h₂ := h₁.elapse (.publish (show Indexer.stage? _ "mine" = some (.built _) from rfl))
  have h₃ := h₂.elapse (.save (show Indexer.stage? _ "mine" = some (.published _) from rfl) none)
  have h₄ := h₃.move.elapse
    (.complete (show Indexer.stage? _ "mine" = some (.settled _ _) from rfl) 2)
  have h₅ := h₄.move.elapse (.rescan (rootCall "other" 3))
  exact ⟨_, _, _, _, h₅.move, rfl, rfl, rfl⟩

end Ripple.Rebuild
