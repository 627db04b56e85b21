import Ripple.Graph.Basic
import Ripple.Json.Basic
import Ripple.Time.Duration

/-!
# Ripple.Display.Status

The state of the latest rebuild, as text and as JSON.  A text that is empty and a time that is not
there are left out.
-/

namespace Ripple

/-- What is shown of a rebuild. -/
structure StatusView where
  /-- The word for the state. -/
  state : String
  runId : String
  path : String
  startedAt : Option Timestamp
  finishedAt : Option Timestamp
  error : String
  /-- Why the published graph could not be saved. -/
  persistError : String
  nodes : Int
  edges : Int
  deriving DecidableEq, Repr

namespace StatusView

/-- The word for a state in which there is a graph to speak of. -/
def completedWord : String := "COMPLETED"

/-- A line with a name in front, unless there is nothing to show. -/
def line (name text : String) : String :=
  if text = "" then "" else name ++ text ++ "\n"

/-- How long the rebuild took, to the millisecond. -/
def durationLine (s : StatusView) : String :=
  match s.startedAt, s.finishedAt with
  | some start, some stop =>
    "Duration: " ++ Duration.render (Duration.round 1000000 (Duration.between start stop)) ++ "\n"
  | _, _ => ""

/-- The status as lines of text. -/
def text (s : StatusView) : String :=
  s!"State:    {s.state}\n" ++ line "Run:      " s.runId ++ line "Path:     " s.path ++
    s.durationLine ++
    (if s.state = completedWord then s!"Graph:    {s.nodes} nodes, {s.edges} edges\n" else "") ++
    line "Error:    " s.error ++ line "Not saved: " s.persistError

/-- The status as JSON, with a given way to write times. -/
def toJson (renderTime : Timestamp → String) (s : StatusView) : Json :=
  let time (name : String) (t : Option Timestamp) : List (String × Json) :=
    match t with
    | some t => [(name, .string (renderTime t))]
    | none => []
  .object ([("state", .string s.state)] ++ Json.nonempty "runId" s.runId ++
    Json.nonempty "path" s.path ++ time "startedAt" s.startedAt ++ time "finishedAt" s.finishedAt ++
    Json.nonempty "error" s.error ++ Json.nonempty "persistError" s.persistError ++
    [("nodes", .int s.nodes), ("edges", .int s.edges)])

end StatusView

end Ripple
