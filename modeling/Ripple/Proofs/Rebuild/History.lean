import Ripple.Proofs.Graph.Invariant
import Ripple.Rebuild.Indexer

/-!
# Ripple.Proofs.Rebuild.History

Rebuilding under every interleaving.

A *history* lists what has happened to an indexer, the latest first: requests with their answers,
reads of the status, and the single steps of the rebuilds in flight.  `Step` says which of them can
happen next, and `Trace` collects the histories that are possible.

What an indexer should show after a history is said by functions of the history alone:

* `latestCall` is the request that was accepted last;
* `staging` is the builder of a rebuild, fed with all that it has ingested;
* `lastSuccess` and `lastPublished` are the complete graphs of the build that succeeded last, and of
  the one that was published last;
* `graphBefore` is what was published when the latest request was accepted;
* `verdict` is what went wrong with a rebuild.

`Sound` relates an indexer to these.  `Sound.step` shows that a step keeps the relation, one lemma
for each kind of step, and `Trace.sound` that it holds after every history.
-/

namespace Ripple.Rebuild

/-! ## what can happen -/

/-- A request for a rebuild, with the files it finds. -/
structure Call where
  files : Source.FileTree
  cwd : String
  path : String
  run : RunId
  now : Timestamp

/-- The path of a request is that of a directory. -/
def Call.Valid (c : Call) : Prop :=
  Text.isBlank c.path = false ∧
    ∃ tree, c.files.probe (Path.absolute c.cwd c.path) = .ok tree ∧ tree.isDirectory = true

/-- The answer to a request, and the indexer afterwards. -/
def Indexer.receive (ix : Indexer) (c : Call) : Except Failure Status × Indexer :=
  ix.rescan c.files c.cwd c.path c.run c.now

/-- Something that happens to an indexer. -/
inductive Event where
  | rescan (c : Call) (answer : Except Failure Status)
  | status (s : Status)
  | ingest (run : RunId) (op : Operation)
  | conclude (run : RunId) (ending : Ending)
  | publish (run : RunId)
  | save (run : RunId) (problem : Option Failure)
  | finish (run : RunId) (now : Timestamp)

/-- Requests and reads can happen at any time, a step of a rebuild when it has come that far.  A
build can end, in any way, after any part of its work. -/
inductive Step (ix : Indexer) : Event → Indexer → Prop where
  | rescan (c : Call) : Step ix (.rescan c (ix.receive c).1) (ix.receive c).2
  | status : Step ix (.status ix.status) ix
  | ingest {run : RunId} {b : Builder} (h : ix.stage? run = some (.building b)) (op : Operation) :
    Step ix (.ingest run op) (ix.ingest run fun b => (op.perform.run b).2)
  | conclude {run : RunId} {b : Builder} (h : ix.stage? run = some (.building b))
    (ending : Ending) : Step ix (.conclude run ending) (ix.conclude run ending)
  | publish {run : RunId} {g : Graph} (h : ix.stage? run = some (.built g)) :
    Step ix (.publish run) (ix.publish run)
  | save {run : RunId} {g : Graph} (h : ix.stage? run = some (.published g))
    (problem : Option Failure) : Step ix (.save run problem) (ix.save run problem)
  | complete {run : RunId} {g : Graph} {problem : Option Failure}
    (h : ix.stage? run = some (.settled g problem)) (now : Timestamp) :
    Step ix (.finish run now) (ix.finish run now)
  | fail {run : RunId} {f : Failure} (h : ix.stage? run = some (.broken f)) (now : Timestamp) :
    Step ix (.finish run now) (ix.finish run now)

/-- The histories that lead from one indexer to another. -/
inductive Trace (start : Indexer) : List Event → Indexer → Prop where
  | start : Trace start [] start
  | step {history : List Event} {ix ix' : Indexer} {e : Event} (h : Trace start history ix)
    (hstep : Step ix e ix') : Trace start (e :: history) ix'

/-! ## what a history amounts to -/

/-- The request that was accepted last, with its answer. -/
def latestCall : List Event → Option (Call × Status)
  | [] => none
  | .rescan c (.ok s) :: _ => some (c, s)
  | _ :: history => latestCall history

/-- The builder of a rebuild: fresh when the rebuild was accepted, then fed with all it ingested. -/
def staging (run : RunId) : List Event → Builder
  | [] => .new 0
  | .rescan c (.ok _) :: history => if c.run = run then .new c.now else staging run history
  | .ingest r op :: history =>
    if r = run then (op.perform.run (staging run history)).2 else staging run history
  | _ :: history => staging run history

/-- The graph of the build that succeeded last. -/
def lastSuccess (initial : Graph) : List Event → Graph
  | [] => initial
  | .conclude run .done :: history => (staging run history).graph
  | _ :: history => lastSuccess initial history

/-- The graph of the build that was published last. -/
def lastPublished (initial : Graph) : List Event → Graph
  | [] => initial
  | .publish run :: history => (staging run history).graph
  | _ :: history => lastPublished initial history

/-- The graph that was published when the latest request was accepted. -/
def graphBefore (initial : Graph) : List Event → Graph
  | [] => initial
  | .rescan _ (.ok _) :: history => lastPublished initial history
  | _ :: history => graphBefore initial history

/-- The failure of a rebuild whose graph was published and not saved. -/
def unsaved (problem : Failure) : Failure :=
  .codedOver .internal "graph published but not saved" problem

/-- What went wrong with a rebuild so far. -/
def verdict (run : RunId) : List Event → Option Failure
  | [] => none
  | .rescan c (.ok _) :: history => if c.run = run then none else verdict run history
  | .conclude r ending :: history => if r = run then ending.problem else verdict run history
  | .save r problem :: history => if r = run then problem.map unsaved else verdict run history
  | _ :: history => verdict run history

/-! ## the invariant -/

/-- What a history amounts to, gathered. -/
structure Account where
  latest : Option (Call × Status)
  staging : RunId → Builder
  success : Graph
  published : Graph
  before : Graph
  verdict : RunId → Option Failure

/-- The account of a history. -/
def account (initial : Graph) (history : List Event) : Account where
  latest := latestCall history
  staging run := Rebuild.staging run history
  success := lastSuccess initial history
  published := lastPublished initial history
  before := graphBefore initial history
  verdict run := Rebuild.verdict run history

/-- What holds of a rebuild that has come to a stage. -/
def Stage.Reflects (a : Account) (run : RunId) : Stage → Prop
  | building b =>
    b = a.staging run ∧ a.verdict run = none ∧ a.published = a.before ∧ a.success = a.published
  | built g =>
    g = (a.staging run).graph ∧ a.verdict run = none ∧ a.published = a.before ∧ a.success = g
  | published g => a.published = g ∧ a.verdict run = none ∧ a.success = g
  | settled g problem => a.published = g ∧ a.verdict run = problem.map unsaved ∧ a.success = g
  | broken f =>
    f.code = Code.ingestionFailure ∧ f.message ≠ "" ∧ a.verdict run = some f ∧
      a.published = a.before ∧ a.success = a.published

/-- Where an indexer stands: before its first rebuild, in the middle of one, or after one that has
failed or succeeded. -/
inductive Standing (a : Account) (ix : Indexer) : Prop where
  | idle (hlatest : a.latest = none) (hflights : ix.flights = []) (hstatus : ix.status = .idle)
    (hsuccess : a.success = a.published)
  | running (c : Call) (s : Status) (stage : Stage) (hlatest : a.latest = some (c, s))
    (hflights : ix.flights = [⟨c.run, stage⟩]) (hstatus : ix.status = s)
    (herror : ix.lastError = none) (hstage : stage.Reflects a c.run)
  | failed (c : Call) (s : Status) (f : Failure) (now : Timestamp)
    (hlatest : a.latest = some (c, s)) (hflights : ix.flights = [])
    (hstatus : ix.status =
      { s with finishedAt := some now, phase := .failed, error := f.message })
    (herror : ix.lastError = some f) (hstage : (Stage.broken f).Reflects a c.run)
  | completed (c : Call) (s : Status) (g : Graph) (problem : Option Failure) (now : Timestamp)
    (persistError : String) (hlatest : a.latest = some (c, s)) (hflights : ix.flights = [])
    (hstatus : ix.status =
      { s with
        finishedAt := some now
        phase := .completed
        nodes := g.nodeCount
        edges := g.edgeCount
        persistError := persistError })
    (herror : ix.lastError = problem.map unsaved)
    (hstage : (Stage.settled g problem).Reflects a c.run)

/-- The status that a request is answered with is that of its rebuild at the start. -/
def Call.Opens (c : Call) (s : Status) : Prop :=
  ∃ full, Indexer.checkPath c.files c.cwd c.path = .ok full ∧ s = .started c.run full c.now

theorem Call.Opens.phase_eq {c : Call} {s : Status} (h : c.Opens s) : s.phase = .running := by
  obtain ⟨full, -, rfl⟩ := h
  rfl

/-- An indexer shows what its history amounts to. -/
structure Sound (a : Account) (ix : Indexer) : Prop where
  snapshot_eq : ix.store.snapshot = a.published
  latest_eq : ix.latest = a.latest.map (·.1.run)
  opens : ∀ c s, a.latest = some (c, s) → c.Opens s
  standing : Standing a ix

/-! ## requests -/

namespace Indexer

theorem checkPath_ok_iff (c : Call) :
    (∃ full, checkPath c.files c.cwd c.path = .ok full) ↔ c.Valid := by
  unfold checkPath Call.Valid
  cases hblank : Text.isBlank c.path with
  | true => simp
  | false =>
      cases hprobe : c.files.probe (Path.absolute c.cwd c.path) with
      | error p => simp [hprobe]
      | ok tree => by_cases hdir : tree.isDirectory <;> simp [hprobe, hdir]

theorem checkPath_code {c : Call} {f : Failure} (h : checkPath c.files c.cwd c.path = .error f) :
    f.code = Code.invalidParameter := by
  unfold checkPath at h
  split at h
  · cases h; rfl
  · simp only at h
    split at h
    · cases h; rfl
    · split at h
      · cases h
      · cases h; rfl

/-- A request is refused for its path, refused because a rebuild is running, or accepted. -/
theorem receive_cases (ix : Indexer) (c : Call) :
    (∃ f, ¬c.Valid ∧ f.code = Code.invalidParameter ∧ ix.receive c = (.error f, ix)) ∨
    (∃ f, c.Valid ∧ ix.status.phase = .running ∧ f.code = Code.conflict ∧
      ix.receive c = (.error f, ix)) ∨
    (∃ s, c.Valid ∧ ix.status.phase ≠ .running ∧ c.Opens s ∧
      ix.receive c = (.ok s,
        { ix with
          status := s
          lastError := none
          flights := ix.flights ++ [⟨c.run, .building (.new c.now)⟩]
          latest := some c.run })) := by
  unfold receive rescan
  cases hpath : checkPath c.files c.cwd c.path with
  | error f =>
      refine .inl ⟨f, ?_, checkPath_code hpath, rfl⟩
      intro hvalid
      obtain ⟨full, hfull⟩ := (checkPath_ok_iff c).mpr hvalid
      rw [hpath] at hfull
      cases hfull
  | ok full =>
      have hvalid := (checkPath_ok_iff c).mp ⟨full, hpath⟩
      by_cases hrunning : ix.status.phase = .running
      · exact .inr (.inl ⟨.coded .conflict "a rescan is already running", hvalid, hrunning, rfl,
          by simp only [accept, if_pos hrunning]⟩)
      · exact .inr (.inr ⟨_, hvalid, hrunning, ⟨full, hpath, rfl⟩,
          by simp only [accept, if_neg hrunning]⟩)

end Indexer

/-! ## steps -/

variable {a a' : Account} {ix : Indexer} {run : RunId} {stage : Stage}

/-- A rebuild that has come to some stage is the only one in flight, and the one accepted last. -/
theorem Standing.of_stage? (h : Standing a ix) (hstage : ix.stage? run = some stage) :
    ∃ c s, a.latest = some (c, s) ∧ c.run = run ∧ ix.flights = [⟨run, stage⟩] ∧ ix.status = s ∧
      ix.lastError = none ∧ stage.Reflects a run := by
  cases h with
  | idle hlatest hflights | failed _ _ _ _ hlatest hflights
  | completed _ _ _ _ _ _ hlatest hflights =>
      simp [Indexer.stage?, hflights] at hstage
  | running c s stage' hlatest hflights hstatus herror hreflects =>
      simp only [Indexer.stage?, hflights, List.find?_singleton, decide_eq_true_eq] at hstage
      split at hstage
      · next hrun =>
          cases hrun
          cases hstage
          exact ⟨c, s, hlatest, rfl, hflights, hstatus, herror, hreflects⟩
      · contradiction

/-- The rebuild in flight moves on, perhaps with something published. -/
theorem Sound.advance (h : Sound a ix) (hstage : ix.stage? run = some stage) {next : Stage}
    {store : Store} (hlatest : a'.latest = a.latest) (hstore : store.snapshot = a'.published)
    (hnext : next.Reflects a' run) : Sound a' { ix.advance run next with store := store } := by
  obtain ⟨c, s, hcall, hrun, hflights, hstatus, herror, -⟩ := h.standing.of_stage? hstage
  refine ⟨hstore, ?_, ?_, ?_⟩
  · rw [hlatest]
    exact h.latest_eq
  · rw [hlatest]
    exact h.opens
  · refine .running c s next (hlatest.trans hcall) ?_ hstatus herror (hrun ▸ hnext)
    simp [Indexer.advance, hflights, hrun]

/-- Unless a rebuild is running none is in flight, and what was built last is published. -/
theorem Sound.at_rest (h : Sound a ix) (hphase : ix.status.phase ≠ .running) :
    ix.flights = [] ∧ a.success = a.published := by
  cases h.standing with
  | idle hlatest hflights hstatus hsuccess => exact ⟨hflights, hsuccess⟩
  | running c s stage hlatest hflights hstatus =>
      rw [hstatus] at hphase
      exact absurd (h.opens c s hlatest).phase_eq hphase
  | failed c s f now hlatest hflights hstatus herror hstage =>
      obtain ⟨-, -, -, -, hsuccess⟩ := hstage
      exact ⟨hflights, hsuccess⟩
  | completed c s g problem now persistError hlatest hflights hstatus herror hstage =>
      obtain ⟨hpublished, -, hsuccess⟩ := hstage
      exact ⟨hflights, hsuccess.trans hpublished.symm⟩

section
variable {initial : Graph} {history : List Event} (h : Sound (account initial history) ix)
include h

/-- A request that is refused changes nothing; one that is accepted finds no rebuild in flight. -/
theorem Sound.rescan (c : Call) :
    Sound (account initial (.rescan c (ix.receive c).1 :: history)) (ix.receive c).2 := by
  obtain ⟨f, -, -, hanswer⟩ | ⟨f, -, -, -, hanswer⟩ | ⟨s, -, hphase, hopens, hanswer⟩ :=
    ix.receive_cases c
  · rw [hanswer]
    exact h
  · rw [hanswer]
    exact h
  · rw [hanswer]
    obtain ⟨hflights, hsuccess⟩ := h.at_rest hphase
    refine ⟨h.snapshot_eq, rfl, ?_, ?_⟩
    · rintro c' s' hlatest
      cases hlatest
      exact hopens
    · refine .running c s (.building (.new c.now)) rfl ?_ rfl rfl
        ⟨(if_pos rfl).symm, if_pos rfl, rfl, hsuccess⟩
      simp only [hflights, List.nil_append]

theorem Sound.ingest {b : Builder} (hstage : ix.stage? run = some (.building b)) (op : Operation) :
    Sound (account initial (.ingest run op :: history))
      (ix.ingest run fun b => (op.perform.run b).2) := by
  obtain ⟨-, -, -, -, -, -, -, hb, hverdict, hbefore, hsuccess⟩ := h.standing.of_stage? hstage
  simp only [Indexer.ingest, hstage]
  refine h.advance hstage rfl h.snapshot_eq ⟨?_, hverdict, hbefore, hsuccess⟩
  rw [hb]
  exact (if_pos rfl).symm

theorem Sound.conclude {b : Builder} (hstage : ix.stage? run = some (.building b))
    (ending : Ending) :
    Sound (account initial (.conclude run ending :: history)) (ix.conclude run ending) := by
  obtain ⟨-, -, -, -, -, -, -, hb, hverdict, hbefore, hsuccess⟩ := h.standing.of_stage? hstage
  simp only [Indexer.conclude, hstage]
  refine h.advance hstage rfl h.snapshot_eq ?_
  cases ending with
  | done => exact ⟨congrArg Builder.graph hb, if_pos rfl, hbefore, (congrArg Builder.graph hb).symm⟩
  | failed f => exact ⟨rfl, by simp [Failure.message], if_pos rfl, hbefore, hsuccess⟩
  | panicked text => exact ⟨rfl, by simp [Failure.message], if_pos rfl, hbefore, hsuccess⟩

theorem Sound.publish {g : Graph} (hstage : ix.stage? run = some (.built g)) :
    Sound (account initial (.publish run :: history)) (ix.publish run) := by
  obtain ⟨-, -, -, -, -, -, -, hg, hverdict, -, hsuccess⟩ := h.standing.of_stage? hstage
  simp only [Indexer.publish, hstage]
  refine h.advance hstage rfl hg ?_
  split
  · exact ⟨hg.symm, hverdict, hsuccess⟩
  · exact ⟨hg.symm, hverdict, hsuccess⟩

theorem Sound.save {g : Graph} (hstage : ix.stage? run = some (.published g))
    (problem : Option Failure) :
    Sound (account initial (.save run problem :: history)) (ix.save run problem) := by
  obtain ⟨-, -, -, -, -, -, -, hpublished, -, hsuccess⟩ := h.standing.of_stage? hstage
  simp only [Indexer.save, hstage]
  exact h.advance hstage rfl h.snapshot_eq ⟨hpublished, if_pos rfl, hsuccess⟩

theorem Sound.complete {g : Graph} {problem : Option Failure}
    (hstage : ix.stage? run = some (.settled g problem)) (now : Timestamp) :
    Sound (account initial (.finish run now :: history)) (ix.finish run now) := by
  obtain ⟨c, s, hlatest, rfl, hflights, hstatus, herror, hreflects⟩ := h.standing.of_stage? hstage
  simp only [Indexer.finish, hstage]
  refine ⟨h.snapshot_eq, h.latest_eq, h.opens, .completed c s g problem now _ hlatest ?_
    (by rw [hstatus]) ?_ hreflects⟩
  · simp [hflights]
  · cases problem with
    | none => exact herror
    | some p => rfl

theorem Sound.fail {f : Failure} (hstage : ix.stage? run = some (.broken f)) (now : Timestamp) :
    Sound (account initial (.finish run now :: history)) (ix.finish run now) := by
  obtain ⟨c, s, hlatest, rfl, hflights, hstatus, herror, hreflects⟩ := h.standing.of_stage? hstage
  simp only [Indexer.finish, hstage]
  refine ⟨h.snapshot_eq, h.latest_eq, h.opens, .failed c s f now hlatest ?_ (by rw [hstatus]) rfl
    hreflects⟩
  simp [hflights]

theorem Sound.step {e : Event} {ix' : Indexer} (hstep : Step ix e ix') :
    Sound (account initial (e :: history)) ix' := by
  cases hstep with
  | rescan c => exact h.rescan c
  | status => exact h
  | ingest hstage op => exact h.ingest hstage op
  | conclude hstage ending => exact h.conclude hstage ending
  | publish hstage => exact h.publish hstage
  | save hstage problem => exact h.save hstage problem
  | complete hstage now => exact h.complete hstage now
  | fail hstage now => exact h.fail hstage now

end

theorem Trace.sound {store : Store} {persists : Bool} {history : List Event}
    (h : Trace (.new store persists) history ix) :
    Sound (account store.snapshot history) ix := by
  induction h with
  | start => exact ⟨rfl, rfl, (fun c s hlatest => nomatch hlatest), .idle rfl rfl rfl rfl⟩
  | step _ hstep ih => exact ih.step hstep

/-! ## what an indexer shows -/

theorem Sound.running_iff (h : Sound a ix) :
    ix.flights.length ≤ 1 ∧ (ix.status.phase = .running ↔ ix.flights ≠ []) := by
  by_cases hphase : ix.status.phase = .running
  · cases h.standing with
    | running c s stage hlatest hflights => simp [hflights, hphase]
    | idle _ _ hstatus | failed _ _ _ _ _ _ hstatus | completed _ _ _ _ _ _ _ _ hstatus =>
        rw [hstatus] at hphase
        contradiction
  · simp [(h.at_rest hphase).1, hphase]

theorem Sound.failed (h : Sound a ix) (hphase : ix.status.phase = .failed) :
    ix.status.error ≠ "" ∧ ix.store.snapshot = a.before := by
  cases h.standing with
  | failed c s f now hlatest hflights hstatus herror hstage =>
      obtain ⟨-, hmessage, -, hbefore, -⟩ := hstage
      rw [hstatus]
      exact ⟨hmessage, h.snapshot_eq.trans hbefore⟩
  | running c s stage hlatest hflights hstatus =>
      rw [hstatus, (h.opens c s hlatest).phase_eq] at hphase
      contradiction
  | idle _ _ hstatus | completed _ _ _ _ _ _ _ _ hstatus =>
      rw [hstatus] at hphase
      contradiction

theorem Sound.completed (h : Sound a ix) (hphase : ix.status.phase = .completed) :
    ix.status.error = "" ∧ ix.status.nodes = ix.store.snapshot.nodeCount ∧
      ix.status.edges = ix.store.snapshot.edgeCount := by
  cases h.standing with
  | completed c s g problem now persistError hlatest hflights hstatus herror hstage =>
      obtain ⟨full, -, rfl⟩ := h.opens c s hlatest
      rw [hstatus, h.snapshot_eq, hstage.1]
      exact ⟨rfl, rfl, rfl⟩
  | running c s stage hlatest hflights hstatus =>
      rw [hstatus, (h.opens c s hlatest).phase_eq] at hphase
      contradiction
  | idle _ _ hstatus | failed _ _ _ _ _ _ hstatus =>
      rw [hstatus] at hphase
      contradiction

/-- The status is about the request that was accepted last. -/
theorem Sound.names_call (h : Sound a ix) (hphase : ix.status.phase ≠ .idle) :
    ∃ c s, a.latest = some (c, s) ∧ ix.status.runId = c.run ∧
      Indexer.checkPath c.files c.cwd c.path = .ok ix.status.path := by
  cases h.standing with
  | idle _ _ hstatus =>
      rw [hstatus] at hphase
      exact absurd rfl hphase
  | running c s _ hlatest _ hstatus | failed c s _ _ hlatest _ hstatus
  | completed c s _ _ _ _ hlatest _ hstatus =>
      obtain ⟨full, hpath, rfl⟩ := h.opens c s hlatest
      rw [hstatus]
      exact ⟨c, _, hlatest, rfl, hpath⟩

/-- The graph that was built last is published, or waits to be. -/
theorem Sound.snapshot_success (h : Sound a ix) :
    ix.store.snapshot = a.success ∨ ∃ run, ix.stage? run = some (.built a.success) := by
  rw [h.snapshot_eq]
  by_cases hphase : ix.status.phase = .running
  · cases h.standing with
    | running c s stage hlatest hflights hstatus herror hstage =>
        cases stage with
        | building b =>
            obtain ⟨-, -, -, hsuccess⟩ := hstage
            exact .inl hsuccess.symm
        | broken f =>
            obtain ⟨-, -, -, -, hsuccess⟩ := hstage
            exact .inl hsuccess.symm
        | built g =>
            obtain ⟨-, -, -, hsuccess⟩ := hstage
            exact .inr ⟨c.run, by simp [Indexer.stage?, hflights, hsuccess]⟩
        | published g | settled g problem => exact .inl (hstage.1.trans hstage.2.2.symm)
    | idle _ _ hstatus | failed _ _ _ _ _ _ hstatus | completed _ _ _ _ _ _ _ _ hstatus =>
        rw [hstatus] at hphase
        contradiction
  · exact .inl (h.at_rest hphase).2.symm

/-- **Rebuilding is lawful**: after any interleaving of requests, reads and steps of rebuilds,

* at most one rebuild is in flight, and the status is running exactly when one is;
* a request is refused, with nothing changed, exactly when its path is no directory or a rebuild is
  running, and its code says which;
* the published graph is the complete graph of the build that was published last, which is the one
  that succeeded last unless the rebuild in flight still has to publish that one;
* a failure has a text and leaves what was published before the rebuild;
* a success has none and counts the nodes and edges that are published;
* the status names the request that started the rebuild. -/
theorem Trace.rebuild_lawful {store : Store} {persists : Bool} {history : List Event}
    (h : Trace (.new store persists) history ix) :
    ix.flights.length ≤ 1 ∧
    (ix.status.phase = .running ↔ ix.flights ≠ []) ∧
    (∀ c : Call, ((∃ f, (ix.receive c).1 = .error f) ↔ ¬c.Valid ∨ ix.status.phase = .running) ∧
      ∀ f, (ix.receive c).1 = .error f → (ix.receive c).2 = ix ∧
        (c.Valid → f.code = Code.conflict) ∧ (¬c.Valid → f.code = Code.invalidParameter)) ∧
    ix.store.snapshot = lastPublished store.snapshot history ∧
    (ix.store.snapshot = lastSuccess store.snapshot history ∨
      ∃ run, ix.stage? run = some (.built (lastSuccess store.snapshot history))) ∧
    (ix.status.phase = .failed →
      ix.status.error ≠ "" ∧ ix.store.snapshot = graphBefore store.snapshot history) ∧
    (ix.status.phase = .completed →
      ix.status.error = "" ∧ ix.status.nodes = ix.store.snapshot.nodeCount ∧
        ix.status.edges = ix.store.snapshot.edgeCount) ∧
    (ix.status.phase ≠ .idle → ∃ c s, latestCall history = some (c, s) ∧
      ix.status.runId = c.run ∧
      Indexer.checkPath c.files c.cwd c.path = .ok ix.status.path) := by
  have hsound := h.sound
  refine ⟨hsound.running_iff.1, hsound.running_iff.2, ?_, hsound.snapshot_eq,
    hsound.snapshot_success, hsound.failed, hsound.completed, hsound.names_call⟩
  intro c
  obtain ⟨f, hvalid, hcode, hanswer⟩ | ⟨f, hvalid, hphase, hcode, hanswer⟩ |
    ⟨s, hvalid, hphase, -, hanswer⟩ := ix.receive_cases c
  · simp [hanswer, hvalid, hcode]
  · simp [hanswer, hvalid, hcode, hphase]
  · simp [hanswer, hvalid, hphase]

/-- A request for the root of an empty file tree. -/
def rootCall (run : RunId) (now : Timestamp) : Call := ⟨.directory [], "/", "/", run, now⟩

/-- A rebuild that fails after a file was ingested: the status says so, and queries still see the
graph before. -/
theorem rootCall_failed :
    ∃ history ix, Trace (.new .new true) history ix ∧ ix.status.phase = .failed ∧
      ix.status.runId = "r" ∧ ix.status.path = "/" ∧ ix.store.snapshot = Graph.empty := by
  have h₁ : Trace (.new .new true) _ _ := Trace.start.step (.rescan (rootCall "r" 5))
  have h₂ := h₁.step (.ingest (show Indexer.stage? _ "r" = some (.building _) from rfl)
    (.fact (.file "A.java" "/A.java")))
  have h₃ := h₂.step (.conclude (show Indexer.stage? _ "r" = some (.building _) from rfl)
    (.failed (.ofText "boom")))
  have h₄ := h₃.step (.fail (show Indexer.stage? _ "r" = some (.broken _) from rfl) 7)
  obtain ⟨-, -, -, -, -, hfailed, -⟩ := h₄.rebuild_lawful
  exact ⟨_, _, h₄, rfl, rfl, rfl, (hfailed rfl).2⟩

/-- Between its success and its publication a build is the last that succeeded, and queries still
see the graph before. -/
theorem rootCall_unpublished :
    ∃ history ix, Trace (.new .new true) history ix ∧
      ix.store.snapshot ≠ lastSuccess Store.new.snapshot history := by
  have h₁ : Trace (.new .new true) _ _ := Trace.start.step (.rescan (rootCall "r" 5))
  have h₂ := h₁.step (.ingest (show Indexer.stage? _ "r" = some (.building _) from rfl)
    (.fact (.file "A.java" "/A.java")))
  have h₃ := h₂.step (.conclude (show Indexer.stage? _ "r" = some (.building _) from rfl) .done)
  have hfile :
      ((Operation.fact (.file "A.java" "/A.java")).perform.run (.new 5)).2.graph.nodeCount = 1 := by
    simp only [Operation.perform, Builder.ingest, Builder.upsertFile, Builder.run_map]
    rw [Builder.upsert_run_of_new (b := .new 5) rfl (by decide) (Graph.find?_empty _ _)]
    rfl
  refine ⟨_, _, h₃, fun heq => ?_⟩
  exact absurd ((congrArg Graph.nodeCount heq).trans hfile) (by decide)

end Ripple.Rebuild
