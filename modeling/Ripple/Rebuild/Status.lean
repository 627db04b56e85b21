import Ripple.Display.Status

/-!
# Ripple.Rebuild.Status

What is known about the latest rebuild.
-/

namespace Ripple.Rebuild

/-- What tells one rebuild from the others; a new one gets a fresh text. -/
abbrev RunId := String

/-- Where the latest rebuild stands. -/
inductive Phase where
  | idle | running | completed | failed
  deriving DecidableEq, Repr

/-- The word for a phase. -/
def Phase.word : Phase → String
  | idle => "IDLE"
  | running => "RUNNING"
  | completed => StatusView.completedWord
  | failed => "FAILED"

/-- The latest rebuild. -/
structure Status where
  phase : Phase
  runId : RunId
  path : String
  startedAt : Option Timestamp
  finishedAt : Option Timestamp
  /-- Why the rebuild failed, or empty. -/
  error : String
  /-- Why the published graph was not saved, or empty. -/
  persistError : String
  nodes : Nat
  edges : Nat
  deriving DecidableEq, Repr

namespace Status

/-- The status before the first rebuild. -/
def idle : Status := ⟨.idle, "", "", none, none, "", "", 0, 0⟩

/-- The status of a rebuild that has just started. -/
def started (run : RunId) (path : String) (now : Timestamp) : Status :=
  ⟨.running, run, path, some now, none, "", "", 0, 0⟩

/-- The status as it is shown. -/
def view (s : Status) : StatusView :=
  ⟨s.phase.word, s.runId, s.path, s.startedAt, s.finishedAt, s.error, s.persistError, s.nodes,
    s.edges⟩

end Status

end Ripple.Rebuild
