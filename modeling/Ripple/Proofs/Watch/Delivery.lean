import Ripple.Rebuild.Status
import Ripple.Watch.Watcher
import Mathlib.Data.List.Induction
import Mathlib.Data.List.Perm.Basic

/-!
# Ripple.Proofs.Watch.Delivery

No change of a source file is lost, in whatever order changes, timers and triggers move.

A `Journal` is a watcher together with what has become of its triggers: those that hold a batch and
have not returned, and those that have, with the answer they got.  The watcher moves only by its own
functions; the journal adds the times, counted in moves.  A `Move` is one thing that can happen, and
one that does not apply changes nothing, so a list of moves is any interleaving.

* `Journal.Kept` says where a change can be: with the pending files, in a batch that waits for its
  answer, in one for which a rebuild was asked for later and started, or in one whose failure was
  reported;
* `Journal.Sound` is the invariant that goes with it: the batches that are held are those of the
  waiting triggers, and pending files have a timer or a trigger that will take them.

`Sound.step` and `Kept.step` show that a move keeps both, one case for each kind of move, and
`run_keeps_changes` follows by induction over the moves.
-/

namespace Ripple.Watch

/-! ## pending files -/

theorem mem_insert {s x : String} {l : List String} : x ∈ insert s l ↔ x = s ∨ x ∈ l := by
  induction l with
  | nil => simp [insert]
  | cons t rest ih =>
      unfold insert
      split
      · next h => simp [h]
      · split
        · simp
        · rw [List.mem_cons, List.mem_cons, ih, or_left_comm]

theorem mem_insertAll {x : String} {ss l : List String} : x ∈ insertAll ss l ↔ x ∈ ss ∨ x ∈ l := by
  unfold insertAll
  induction ss generalizing l with
  | nil => simp
  | cons s ss ih =>
      rw [List.foldl_cons, ih, mem_insert, List.mem_cons, or_left_comm, or_assoc]

namespace Watcher

variable {w : Watcher}

theorem mem_pending_defer {x : String} {paths : List String} :
    x ∈ (w.defer paths).pending ↔ x ∈ paths ∨ x ∈ w.pending :=
  mem_insertAll

/-! ## what the steps of a watcher do -/

/-- A change of a source file reaches the pending files: it is one of its content, and it is not the
creation of a directory. -/
def Relevant (files : Source.Files) (path : String) (changes : List Change) : Prop :=
  isSourceFile path = true ∧ (∃ c ∈ changes, c ∈ [.write, .create, .remove, .rename]) ∧
    ¬(.create ∈ changes ∧ isDirectory files path = true)

theorem counts_iff {path : String} {changes : List Change} :
    counts path changes = true ↔
      isSourceFile path = true ∧ ∃ c ∈ changes, c ∈ [.write, .create, .remove, .rename] := by
  have hcontent : ∀ c : Change, c.isContent = true ↔ c ∈ [.write, .create, .remove, .rename] := by
    intro c
    cases c <;> decide
  simp only [counts, Bool.and_eq_true, List.any_eq_true, hcontent]

theorem notify_of_relevant {files : Source.Files} {path : String} {changes : List Change}
    (h : Relevant files path changes) : w.notify files path changes = ([], w.defer [path]) := by
  obtain ⟨hsource, hcontent, hfile⟩ := h
  have hdir : ¬(changes.contains .create && isDirectory files path) = true := by simpa using hfile
  rw [notify, if_neg hdir, if_pos (counts_iff.mpr ⟨hsource, hcontent⟩)]

/-- A notification defers its path, or concerns the watched directories only. -/
theorem notify_cases (w : Watcher) (files : Source.Files) (path : String)
    (changes : List Change) :
    (∃ notices watched, w.notify files path changes = (notices, { w with watched })) ∨
      w.notify files path changes = ([], w.defer [path]) := by
  unfold notify
  split
  · left
    unfold addDirectory
    split
    · exact ⟨_, w.watched, rfl⟩
    · split
      · exact ⟨_, w.watched, rfl⟩
      · split
        · exact ⟨_, _, rfl⟩
        · exact ⟨_, w.watched, rfl⟩
  · split
    · exact .inr rfl
    · exact .inl ⟨_, w.watched, rfl⟩

/-- A trigger of a watcher that is not stopped takes all pending files, or there are none. -/
theorem collect_cases (hrunning : w.stopped = false) :
    (w.starting = 0 ∧ w.collect = (none, w)) ∨
    (0 < w.starting ∧ w.pending = [] ∧
      w.collect = (none, { w with starting := w.starting - 1 })) ∨
    (0 < w.starting ∧ w.collect = (some w.pending,
      { w with starting := w.starting - 1, pending := [], held := w.held ++ [w.pending] })) := by
  unfold collect
  split
  · next h => exact .inl ⟨h, rfl⟩
  · next h =>
      have hpos : 0 < w.starting := Nat.pos_of_ne_zero h
      unfold take
      by_cases hempty : w.pending = []
      · exact .inr (.inl ⟨hpos, hempty, by simp [hrunning, hempty]⟩)
      · exact .inr (.inr ⟨hpos, by simp [hrunning, hempty]⟩)

/-- The three ways in which a batch that is held is settled. -/
theorem settle_of_held {batch : List String} (h : batch ∈ w.held)
    (result : Except Failure Rebuild.Status) :
    (∃ status, result = .ok status ∧ w.settle batch (.ofResult result) =
      ([.started batch], { w with held := w.held.erase batch })) ∨
    (w.settle batch (.ofResult result) =
      ([], { w with held := w.held.erase batch }.defer batch)) ∨
    (∃ f, result = .error f ∧ f.hasCode .conflict = false ∧ w.settle batch (.ofResult result) =
      ([.problem (.within "rescan failed" f)], { w with held := w.held.erase batch })) := by
  cases result with
  | ok status => exact .inl ⟨status, rfl, by simp [Reply.ofResult, settle, h]⟩
  | error f =>
      cases hcode : f.hasCode .conflict with
      | true => exact .inr (.inl (by simp [Reply.ofResult, hcode, settle, h]))
      | false => exact .inr (.inr ⟨f, rfl, hcode, by simp [Reply.ofResult, hcode, settle, h]⟩)

end Watcher

/-! ## journals -/

/-- A trigger that has taken a batch. -/
structure Trigger where
  batch : List String
  /-- When it took the batch. -/
  taken : Nat
  /-- When it asked for a rebuild, once it has. -/
  asked : Option Nat

/-- The trigger after it has asked for a rebuild, which it does once. -/
def Trigger.ask (t : Trigger) (now : Nat) : Trigger := { t with asked := t.asked.or (some now) }

/-- Something that happens to a watcher or to one of its triggers. -/
inductive Move where
  /-- Something happened to a path, with the files of that moment. -/
  | event (files : Source.Files) (path : String) (changes : List Change)
  /-- The timer fires. -/
  | fire
  /-- A trigger that was started takes the pending files. -/
  | collect
  /-- A waiting trigger asks for a rebuild. -/
  | ask (place : Nat)
  /-- A waiting trigger that has asked gets its answer, and returns. -/
  | answer (place : Nat) (result : Except Failure Rebuild.Status)

/-- A watcher with what has become of its triggers. -/
structure Journal where
  watcher : Watcher
  /-- How many moves there have been. -/
  clock : Nat
  /-- The triggers that hold a batch. -/
  waiting : List Trigger
  /-- The triggers that have returned, with their answers. -/
  returned : List (Trigger × Except Failure Rebuild.Status)
  /-- What the user was told. -/
  notices : List Notice

namespace Journal

/-- The journal of a watcher to which nothing has happened. -/
def start (w : Watcher) : Journal := ⟨w, 0, [], [], []⟩

/-- The watcher and what it tells its user after a move. -/
def tell (j : Journal) (r : List Notice × Watcher) : Journal :=
  { j with watcher := r.2, notices := j.notices ++ r.1 }

/-- A trigger that took a batch waits. -/
def collected (j : Journal) : Option (List String) × Watcher → Journal
  | (none, w) => { j with watcher := w }
  | (some batch, w) => { j with watcher := w, waiting := j.waiting ++ [⟨batch, j.clock, none⟩] }

/-- A trigger asks for a rebuild. -/
def askAt (j : Journal) (place : Nat) : Journal :=
  { j with waiting := j.waiting.modify place (·.ask j.clock) }

/-- A trigger that has asked returns with its answer. -/
def answerAt (j : Journal) (place : Nat) (result : Except Failure Rebuild.Status) : Journal :=
  match j.waiting[place]? with
  | none => j
  | some t =>
    if t.asked.isNone then j
    else
      { j with
        waiting := j.waiting.eraseIdx place
        returned := j.returned ++ [(t, result)] }.tell
        (j.watcher.settle t.batch (.ofResult result))

/-- What a move does. -/
def move (j : Journal) : Move → Journal
  | .event files path changes => j.tell (j.watcher.notify files path changes)
  | .fire => { j with watcher := j.watcher.fire }
  | .collect => j.collected j.watcher.collect
  | .ask place => j.askAt place
  | .answer place result => j.answerAt place result

/-- A move, and the time it takes. -/
def step (j : Journal) (m : Move) : Journal := { j.move m with clock := j.clock + 1 }

/-- The journal after some moves. -/
def run (j : Journal) (moves : List Move) : Journal := moves.foldl step j

/-- Where the change of a file can be that happened at a given time. -/
inductive Kept (j : Journal) (file : String) (since : Nat) : Prop where
  | pending (h : file ∈ j.watcher.pending)
  | waiting (t : Trigger) (ht : t ∈ j.waiting) (hfile : file ∈ t.batch) (hsince : since < t.taken)
  | rebuilt (t : Trigger) (status : Rebuild.Status) (ht : (t, .ok status) ∈ j.returned)
    (hfile : file ∈ t.batch) (asked : Nat) (hasked : t.asked = some asked) (hsince : since < asked)
  | reported (t : Trigger) (f : Failure) (ht : (t, .error f) ∈ j.returned) (hfile : file ∈ t.batch)
    (hsince : since < t.taken) (hcode : f.hasCode .conflict = false)
    (hnotice : .problem (.within "rescan failed" f) ∈ j.notices)

/-- The watcher runs, holds the batches of the waiting triggers, and leaves no file pending without
a timer or a trigger that will take it; triggers ask after they have taken their batch. -/
structure Sound (j : Journal) : Prop where
  running : j.watcher.stopped = false
  held : j.watcher.held.Perm (j.waiting.map (·.batch))
  timed : j.watcher.pending ≠ [] → j.watcher.timer = .armed ∨ 0 < j.watcher.starting
  taken_lt : ∀ t ∈ j.waiting, t.taken < j.clock
  taken_lt_asked : ∀ t ∈ j.waiting, ∀ k, t.asked = some k → t.taken < k

variable {j : Journal}

/-! ## a move keeps the invariant -/

theorem sound_start {files : Source.Files} {root : String} {w : Watcher}
    (h : Watcher.new files root = .ok w) : (start w).Sound := by
  unfold Watcher.new at h
  split at h
  · cases h
    exact ⟨rfl, .nil, fun h => absurd rfl h, by simp [start], by simp [start]⟩
  · contradiction

/-- What is before a time is before the next one. -/
theorem Sound.taken_lt_succ (h : j.Sound) : ∀ t ∈ j.waiting, t.taken < j.clock + 1 :=
  fun t ht => Nat.lt_succ_of_lt (h.taken_lt t ht)

theorem Sound.event (h : j.Sound) (files : Source.Files) (path : String)
    (changes : List Change) : (j.step (.event files path changes)).Sound := by
  simp only [step, move]
  obtain ⟨notices, watched, hnotify⟩ | hnotify := j.watcher.notify_cases files path changes
  · rw [hnotify]
    exact ⟨h.running, h.held, h.timed, h.taken_lt_succ, h.taken_lt_asked⟩
  · rw [hnotify]
    exact ⟨h.running, h.held, fun _ => .inl rfl, h.taken_lt_succ, h.taken_lt_asked⟩

theorem Sound.fire (h : j.Sound) : (j.step .fire).Sound := by
  simp only [step, move, Watcher.fire]
  split
  · exact ⟨h.running, h.held, fun _ => .inr (Nat.succ_pos _), h.taken_lt_succ, h.taken_lt_asked⟩
  · exact ⟨h.running, h.held, h.timed, h.taken_lt_succ, h.taken_lt_asked⟩

/-- A trigger that takes nothing leaves nothing behind, since nothing was pending. -/
theorem Sound.collect (h : j.Sound) : (j.step .collect).Sound := by
  simp only [step, move]
  obtain ⟨-, hcollect⟩ | ⟨-, hempty, hcollect⟩ | ⟨-, hcollect⟩ := Watcher.collect_cases h.running
  · rw [hcollect]
    exact ⟨h.running, h.held, h.timed, h.taken_lt_succ, h.taken_lt_asked⟩
  · rw [hcollect]
    exact ⟨h.running, h.held, fun hne => absurd hempty hne, h.taken_lt_succ, h.taken_lt_asked⟩
  · rw [hcollect]
    refine ⟨h.running, ?_, fun hne => absurd rfl hne, ?_, ?_⟩
    · simpa [collected] using h.held.append_right [j.watcher.pending]
    · intro t ht
      cases List.mem_append.mp ht with
      | inl hold => exact h.taken_lt_succ t hold
      | inr hnew => rw [List.mem_singleton.mp hnew]; exact Nat.lt_succ_self _
    · intro t ht k hk
      cases List.mem_append.mp ht with
      | inl hold => exact h.taken_lt_asked t hold k hk
      | inr hnew => rw [List.mem_singleton.mp hnew] at hk; contradiction

/-- The triggers after one of them has asked. -/
theorem mem_modify_ask {ts : List Trigger} {place now : Nat} {t : Trigger}
    (h : t ∈ ts.modify place (·.ask now)) : ∃ u ∈ ts, t = u ∨ t = u.ask now := by
  obtain ⟨k, hk, rfl⟩ := List.mem_iff_getElem.mp h
  rw [List.length_modify] at hk
  refine ⟨ts[k], List.getElem_mem hk, ?_⟩
  rw [List.getElem_modify]
  split
  · exact .inr rfl
  · exact .inl rfl

theorem map_batch_modify_ask (ts : List Trigger) (place now : Nat) :
    (ts.modify place (·.ask now)).map (·.batch) = ts.map (·.batch) := by
  induction ts generalizing place with
  | nil => simp
  | cons t ts ih =>
      cases place with
      | zero => rfl
      | succ place => rw [List.modify_succ_cons, List.map_cons, List.map_cons, ih]

theorem Sound.ask (h : j.Sound) (place : Nat) : (j.step (.ask place)).Sound := by
  simp only [step, move, askAt]
  refine ⟨h.running, ?_, h.timed, ?_, ?_⟩
  · rw [map_batch_modify_ask]
    exact h.held
  · intro t ht
    obtain ⟨u, hu, rfl | rfl⟩ := mem_modify_ask ht
    · exact h.taken_lt_succ t hu
    · exact h.taken_lt_succ u hu
  · intro t ht k hk
    obtain ⟨u, hu, rfl | rfl⟩ := mem_modify_ask ht
    · exact h.taken_lt_asked t hu k hk
    · simp only [Trigger.ask, Option.or_eq_some_iff, Option.some.injEq] at hk
      obtain hbefore | ⟨-, rfl⟩ := hk
      · exact h.taken_lt_asked u hu k hbefore
      · exact h.taken_lt u hu

/-- An answer settles the batch of the trigger that gets it, which is held. -/
theorem Sound.answerAt_cases (h : j.Sound) (place : Nat) (result : Except Failure Rebuild.Status) :
    j.answerAt place result = j ∨
      ∃ t asked, j.waiting[place]? = some t ∧ t.asked = some asked ∧ t.batch ∈ j.watcher.held ∧
        j.answerAt place result =
          { j with
            waiting := j.waiting.eraseIdx place
            returned := j.returned ++ [(t, result)] }.tell
            (j.watcher.settle t.batch (.ofResult result)) := by
  unfold answerAt
  cases hplace : j.waiting[place]? with
  | none => exact .inl rfl
  | some t =>
      cases hasked : t.asked with
      | none => exact .inl (by simp [hasked])
      | some asked =>
          have hheld : t.batch ∈ j.watcher.held :=
            h.held.mem_iff.mpr (List.mem_map_of_mem (List.mem_of_getElem? hplace))
          exact .inr ⟨t, asked, rfl, hasked, hheld, by simp [hasked]⟩

/-- The trigger at a place, and all others. -/
theorem perm_cons_eraseIdx {ts : List Trigger} {place : Nat} {t : Trigger}
    (h : ts[place]? = some t) : ts.Perm (t :: ts.eraseIdx place) := by
  obtain ⟨hlt, rfl⟩ := List.getElem?_eq_some_iff.mp h
  exact (List.getElem_cons_eraseIdx_perm hlt).symm

/-- Without the trigger that returns, the others still hold what is held. -/
theorem Sound.held_eraseIdx (h : j.Sound) {place : Nat} {t : Trigger}
    (hplace : j.waiting[place]? = some t) :
    (j.watcher.held.erase t.batch).Perm ((j.waiting.eraseIdx place).map (·.batch)) := by
  have herase := (h.held.trans ((perm_cons_eraseIdx hplace).map (·.batch))).erase t.batch
  rwa [List.map_cons, List.erase_cons_head] at herase

theorem Sound.answer (h : j.Sound) (place : Nat) (result : Except Failure Rebuild.Status) :
    (j.step (.answer place result)).Sound := by
  simp only [step, move]
  obtain hsame | ⟨t, asked, hplace, -, hheld, heq⟩ := h.answerAt_cases place result
  · rw [hsame]
    exact ⟨h.running, h.held, h.timed, h.taken_lt_succ, h.taken_lt_asked⟩
  · have hrest := h.held_eraseIdx hplace
    have htaken : ∀ t ∈ j.waiting.eraseIdx place, t.taken < j.clock + 1 :=
      fun t ht => h.taken_lt_succ t (List.mem_of_mem_eraseIdx ht)
    have hasked : ∀ t ∈ j.waiting.eraseIdx place, ∀ k, t.asked = some k → t.taken < k :=
      fun t ht => h.taken_lt_asked t (List.mem_of_mem_eraseIdx ht)
    rw [heq]
    obtain ⟨status, -, hsettle⟩ | hsettle | ⟨f, -, -, hsettle⟩ :=
      Watcher.settle_of_held hheld result
    · rw [hsettle]
      exact ⟨h.running, hrest, h.timed, htaken, hasked⟩
    · rw [hsettle]
      exact ⟨h.running, hrest, fun _ => .inl rfl, htaken, hasked⟩
    · rw [hsettle]
      exact ⟨h.running, hrest, h.timed, htaken, hasked⟩

theorem Sound.step (h : j.Sound) (m : Move) : (j.step m).Sound := by
  cases m with
  | event files path changes => exact h.event files path changes
  | fire => exact h.fire
  | collect => exact h.collect
  | ask place => exact h.ask place
  | answer place result => exact h.answer place result

/-! ## a move keeps changes -/

variable {file : String} {since : Nat}

/-- What was returned and told stays; so it is enough to follow the pending files and the batches
that wait. -/
theorem Kept.carry {j' : Journal} (h : j.Kept file since) (hreturned : j.returned ⊆ j'.returned)
    (hnotices : j.notices ⊆ j'.notices) (hpending : file ∈ j.watcher.pending → j'.Kept file since)
    (hwaiting : ∀ t ∈ j.waiting, file ∈ t.batch → since < t.taken → j'.Kept file since) :
    j'.Kept file since := by
  cases h with
  | pending h => exact hpending h
  | waiting t ht hfile hsince => exact hwaiting t ht hfile hsince
  | rebuilt t status ht hfile asked hasked hsince =>
      exact .rebuilt t status (hreturned ht) hfile asked hasked hsince
  | reported t f ht hfile hsince hcode hnotice =>
      exact .reported t f (hreturned ht) hfile hsince hcode (hnotices hnotice)

/-- A change stays where it is as long as nothing is taken away from there. -/
theorem Kept.mono {j' : Journal} (h : j.Kept file since) (hreturned : j.returned ⊆ j'.returned)
    (hnotices : j.notices ⊆ j'.notices) (hpending : j.watcher.pending ⊆ j'.watcher.pending)
    (hwaiting : j.waiting ⊆ j'.waiting) : j'.Kept file since :=
  h.carry hreturned hnotices (fun hfile => .pending (hpending hfile))
    fun t ht => .waiting t (hwaiting ht)

theorem Kept.of_eq {j' : Journal} (h : j.Kept file since) (hreturned : j'.returned = j.returned)
    (hnotices : j'.notices = j.notices) (hpending : j'.watcher.pending = j.watcher.pending)
    (hwaiting : j'.waiting = j.waiting) : j'.Kept file since := by
  apply h.mono
  · rw [hreturned]
    exact List.Subset.refl _
  · rw [hnotices]
    exact List.Subset.refl _
  · rw [hpending]
    exact List.Subset.refl _
  · rw [hwaiting]
    exact List.Subset.refl _

theorem Kept.event (h : j.Kept file since) (files : Source.Files) (path : String)
    (changes : List Change) : (j.step (.event files path changes)).Kept file since := by
  simp only [Journal.step, move]
  obtain ⟨notices, watched, hnotify⟩ | hnotify := j.watcher.notify_cases files path changes
  · rw [hnotify]
    exact h.mono (fun _ => id) (List.subset_append_left _ _) (fun _ => id) (fun _ => id)
  · rw [hnotify]
    exact h.mono (fun _ => id) (List.subset_append_left _ _)
      (fun _ hfile => Watcher.mem_pending_defer.mpr (.inr hfile)) (fun _ => id)

theorem Kept.fire (h : j.Kept file since) : (j.step .fire).Kept file since := by
  simp only [Journal.step, move, Watcher.fire]
  split
  · exact h.of_eq rfl rfl rfl rfl
  · exact h.of_eq rfl rfl rfl rfl

/-- What was pending is in the batch that was taken. -/
theorem Kept.collect (h : j.Kept file since) (hj : j.Sound) (hsince : since < j.clock) :
    (j.step .collect).Kept file since := by
  simp only [Journal.step, move]
  obtain ⟨-, hcollect⟩ | ⟨-, -, hcollect⟩ | ⟨-, hcollect⟩ := Watcher.collect_cases hj.running
  · rw [hcollect]
    exact h.of_eq rfl rfl rfl rfl
  · rw [hcollect]
    exact h.of_eq rfl rfl rfl rfl
  · rw [hcollect]
    refine h.carry (fun _ => id) (fun _ => id) ?_ ?_
    · intro hfile
      exact .waiting _ (List.mem_append_right _ List.mem_cons_self) hfile hsince
    · intro t ht hfile hsince
      exact .waiting t (List.mem_append_left _ ht) hfile hsince

/-- A trigger that asks keeps its batch. -/
theorem exists_mem_modify_ask {ts : List Trigger} {t : Trigger} (h : t ∈ ts) (place now : Nat) :
    ∃ u ∈ ts.modify place (·.ask now), u.batch = t.batch ∧ u.taken = t.taken := by
  obtain ⟨k, hk, rfl⟩ := List.mem_iff_getElem.mp h
  have hk' : k < (ts.modify place (·.ask now)).length := by rwa [List.length_modify]
  refine ⟨(ts.modify place (·.ask now))[k], List.getElem_mem hk', ?_⟩
  rw [List.getElem_modify]
  split
  · exact ⟨rfl, rfl⟩
  · exact ⟨rfl, rfl⟩

theorem Kept.ask (h : j.Kept file since) (place : Nat) : (j.step (.ask place)).Kept file since := by
  simp only [Journal.step, move, askAt]
  refine h.carry (fun _ => id) (fun _ => id) (fun hfile => .pending hfile) ?_
  intro t ht hfile hsince
  obtain ⟨u, hu, hbatch, htaken⟩ := exists_mem_modify_ask ht place j.clock
  exact .waiting u hu (hbatch ▸ hfile) (htaken ▸ hsince)

/-- The answer to a trigger decides where the files of its batch go: a rebuild that has started was
asked for after the batch was taken, a refused batch is pending again, and any other failure is
reported. -/
theorem Kept.answer (h : j.Kept file since) (hj : j.Sound) (place : Nat)
    (result : Except Failure Rebuild.Status) :
    (j.step (.answer place result)).Kept file since := by
  simp only [Journal.step, move]
  obtain hsame | ⟨t, asked, hplace, hasked, hheld, heq⟩ := hj.answerAt_cases place result
  · rw [hsame]
    exact h.of_eq rfl rfl rfl rfl
  have hlater := hj.taken_lt_asked t (List.mem_of_getElem? hplace) asked hasked
  -- a trigger waits on, unless the answer is its own
  have hothers : ∀ u ∈ j.waiting, u = t ∨ u ∈ j.waiting.eraseIdx place :=
    fun u hu => List.mem_cons.mp ((perm_cons_eraseIdx hplace).mem_iff.mp hu)
  have hlast : (t, result) ∈ j.returned ++ [(t, result)] :=
    List.mem_append_right _ List.mem_cons_self
  rw [heq]
  obtain ⟨status, rfl, hsettle⟩ | hsettle | ⟨f, rfl, hcode, hsettle⟩ :=
    Watcher.settle_of_held hheld result
  · rw [hsettle]
    refine h.carry (List.subset_append_left _ _) (List.subset_append_left _ _)
      (fun hfile => .pending hfile) ?_
    intro u hu hfile hsince
    obtain rfl | hrest := hothers u hu
    · exact .rebuilt u status hlast hfile asked hasked (Nat.lt_trans hsince hlater)
    · exact .waiting u hrest hfile hsince
  · rw [hsettle]
    refine h.carry (List.subset_append_left _ _) (List.subset_append_left _ _) ?_ ?_
    · intro hfile
      exact .pending (Watcher.mem_pending_defer.mpr (.inr hfile))
    · intro u hu hfile hsince
      obtain rfl | hrest := hothers u hu
      · exact .pending (Watcher.mem_pending_defer.mpr (.inl hfile))
      · exact .waiting u hrest hfile hsince
  · rw [hsettle]
    refine h.carry (List.subset_append_left _ _) (List.subset_append_left _ _)
      (fun hfile => .pending hfile) ?_
    intro u hu hfile hsince
    obtain rfl | hrest := hothers u hu
    · exact .reported u f hlast hfile hsince hcode (List.mem_append_right _ List.mem_cons_self)
    · exact .waiting u hrest hfile hsince

theorem Kept.step (h : j.Kept file since) (hj : j.Sound) (hsince : since < j.clock) (m : Move) :
    (j.step m).Kept file since := by
  cases m with
  | event files path changes => exact h.event files path changes
  | fire => exact h.fire
  | collect => exact h.collect hj hsince
  | ask place => exact h.ask place
  | answer place result => exact h.answer hj place result

/-- A change that has just happened is pending. -/
theorem kept_of_relevant {files : Source.Files} {changes : List Change}
    (h : Watcher.Relevant files file changes) :
    (j.step (.event files file changes)).Kept file since := by
  refine .pending ?_
  simp only [Journal.step, move, tell, Watcher.notify_of_relevant h]
  exact Watcher.mem_pending_defer.mpr (.inl List.mem_cons_self)

/-! ## all moves -/

theorem run_concat (j : Journal) (moves : List Move) (m : Move) :
    j.run (moves ++ [m]) = (j.run moves).step m := by
  simp [run]

theorem Sound.run (h : j.Sound) (moves : List Move) : (j.run moves).Sound := by
  induction moves using List.reverseRecOn with
  | nil => exact h
  | append_singleton moves m ih =>
      rw [run_concat]
      exact ih.step m

theorem clock_run (w : Watcher) (moves : List Move) :
    ((start w).run moves).clock = moves.length := by
  induction moves using List.reverseRecOn with
  | nil => rfl
  | append_singleton moves m ih =>
      rw [run_concat, List.length_append, ← ih]
      rfl

theorem kept_run {w : Watcher} (h : (start w).Sound) {moves : List Move} {i : Nat}
    {files : Source.Files} {changes : List Change}
    (hi : moves[i]? = some (.event files file changes))
    (hrelevant : Watcher.Relevant files file changes) : ((start w).run moves).Kept file i := by
  induction moves using List.reverseRecOn with
  | nil => simp at hi
  | append_singleton moves m ih =>
      rw [run_concat]
      by_cases hlast : i < moves.length
      · rw [List.getElem?_append_left hlast] at hi
        exact (ih hi).step (h.run moves) (by rwa [clock_run]) m
      · obtain ⟨hlt, hm⟩ := List.getElem?_eq_some_iff.mp hi
        have hlen : i = moves.length := by
          rw [List.length_append, List.length_singleton] at hlt
          omega
        subst hlen
        rw [List.getElem_concat_length] at hm
        · rw [hm]
          exact kept_of_relevant hrelevant
        · rfl

/-- **No change is lost**: after any moves of a watcher that has not been stopped, each change of a
source file, and so its latest, is still pending, is in the batch of a trigger that took it later
and has not returned, or in a batch for which a rebuild was asked for later and started, or in one
whose failure, other than a conflict, was reported; and pending files have an armed timer, or a
trigger that was started and has not taken a batch yet. -/
theorem run_keeps_changes {files : Source.Files} {root : String} {w : Watcher}
    (hnew : Watcher.new files root = .ok w) (moves : List Move) :
    let j := (start w).run moves
    (∀ i files path changes, moves[i]? = some (.event files path changes) →
      Watcher.Relevant files path changes → j.Kept path i) ∧
    (j.watcher.pending ≠ [] → j.watcher.timer = .armed ∨ 0 < j.watcher.starting) ∧
    j.watcher.held.Perm (j.waiting.map (·.batch)) := by
  have hstart := sound_start hnew
  have hsound := hstart.run moves
  refine ⟨?_, hsound.timed, hsound.held⟩
  intro i files path changes hi hrelevant
  exact kept_run hstart hi hrelevant

/-- An empty file system. -/
def noFiles : Source.Files := ⟨.empty, "/"⟩

/-- A source file changes, and changes again while the rebuild for its first change is being
refused. -/
def changedTwice : List Move :=
  [.event noFiles "/A.java" [.write], .fire, .collect, .ask 0, .event noFiles "/A.java" [.write],
    .fire, .answer 0 (.error (.coded .conflict "rebuild already running"))]

/-- The second change is pending, together with the first, and both the timer and a trigger are
there for them. -/
theorem changedTwice_kept :
    ∃ w, Watcher.new noFiles "/" = .ok w ∧
      changedTwice[4]? = some (.event noFiles "/A.java" [.write]) ∧
      Watcher.Relevant noFiles "/A.java" [.write] ∧
      ((start w).run changedTwice).Kept "/A.java" 4 ∧
      ((start w).run changedTwice).watcher.timer = .armed ∧
      ((start w).run changedTwice).watcher.starting = 1 := by
  have hnew : Watcher.new noFiles "/" = .ok ⟨"/", ["/"], [], .unset, 0, [], false⟩ := by
    have hwalk : noFiles.walk "/" = .ok (.directory []) := rfl
    simp only [Watcher.new, Watcher.directories, Source.Files.scannedDirectories, hwalk]
    rfl
  have hrelevant : Watcher.Relevant noFiles "/A.java" [.write] :=
    ⟨by decide, ⟨.write, by decide, by decide⟩, by simp⟩
  obtain ⟨hkept, -, -⟩ := run_keeps_changes hnew changedTwice
  have hdelivered := hkept 4 noFiles "/A.java" [.write] rfl hrelevant
  exact ⟨_, hnew, rfl, hrelevant, hdelivered, by decide, by decide⟩

end Journal

end Ripple.Watch
