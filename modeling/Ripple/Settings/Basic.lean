import Ripple.Failure
import Ripple.Time.Duration

/-!
# Ripple.Settings.Basic

What can be configured, the values that hold when nothing is, and what a sound configuration is.
-/

namespace Ripple

/-- The settings of the program. -/
structure Settings where
  /-- Where the snapshot is stored. -/
  databasePath : String := ".beyondsight.db"
  logLevel : String := "info"
  logFormat : String := "text"
  serverAddr : String := ":9998"
  /-- How long the watcher waits for further changes, in nanoseconds. -/
  debounce : Int := 500000000
  /-- How many nodes a traversal visits at most; 0 stands for no bound. -/
  maxNodes : Int := 0
  /-- The languages to analyse, unless never set. -/
  languages : Option (List String) := some ["go", "java"]
  deriving DecidableEq, Repr

namespace Settings

/-- The first setting that is not sound, with what is wrong. -/
def problem? (s : Settings) : Option (String × String) :=
  if s.logFormat ≠ "text" ∧ s.logFormat ≠ "json" then
    some ("logging.format", "must be text or json")
  else if s.maxNodes < 0 then some ("query.maxNodes", "must not be negative")
  else if s.debounce ≤ 0 then some ("watch.debounce", "must be positive")
  else if s.databasePath = "" then some ("database.path", "must not be empty")
  else none

/-- Sound settings, or the first one that is not. -/
def validate (s : Settings) : Except Failure Settings :=
  match s.problem? with
  | none => .ok s
  | some (field, problem) => .error (.root (.setting field problem))

end Settings

end Ripple
