import Ripple.Graph.Store
import Ripple.Rebuild.Status
import Ripple.Source.FileTree

/-!
# Ripple.Rebuild.Indexer

Rebuilds of the published graph.  A rescan is accepted unless a rebuild is running; it puts a
rebuild in flight, which then moves on by itself in steps: facts go into a builder of its own, the
build ends well or badly, a graph that was built is published, then saved, and at last the status is
brought up to date.  Each step is a function, so a history is a list of steps in any order, and one
that does not apply changes nothing.

Queries go to the store and never wait: until a graph is published they see the one before.
-/

namespace Ripple.Rebuild

/-- How a build ended. -/
inductive Ending where
  | done
  | failed (f : Failure)
  | panicked (text : String)

/-- The failure that a rebuild is reported with when its build ended badly. -/
def Ending.problem : Ending → Option Failure
  | done => none
  | failed f => some (.codedOver .ingestionFailure "failed to build graph" f)
  | panicked text => some (.coded .ingestionFailure ("rebuild panicked: " ++ text))

/-- How far a rebuild in flight has come. -/
inductive Stage where
  /-- Facts are ingested. -/
  | building (staging : Builder)
  /-- The graph is complete and still to be published. -/
  | built (g : Graph)
  /-- The graph is published and still to be saved. -/
  | published (g : Graph)
  /-- The graph is published, and saving it has ended, or was not asked for. -/
  | settled (g : Graph) (problem : Option Failure)
  | broken (f : Failure)

/-- A rebuild in flight. -/
structure Flight where
  run : RunId
  stage : Stage

/-- The state of rebuilding. -/
structure Indexer where
  store : Store
  status : Status
  /-- Why the latest rebuild did not fully succeed. -/
  lastError : Option Failure
  /-- The rebuilds in flight. -/
  flights : List Flight
  /-- The rebuild that was accepted last. -/
  latest : Option RunId
  /-- Whether a published graph is saved. -/
  persists : Bool

namespace Indexer

/-- An indexer over a store, before the first rebuild. -/
def new (store : Store) (persists : Bool) : Indexer := ⟨store, .idle, none, [], none, persists⟩

/-! ## asking for a rebuild -/

/-- The failure of a path that leads nowhere. -/
def badPath (full : String) (p : Source.FileTree.PathProblem) : Failure :=
  .codedOver .invalidParameter ("invalid path " ++ full)
    (.ofText ("stat " ++ full ++ ": " ++ p.message))

/-- The absolute form of the path of a directory. -/
def checkPath (files : Source.FileTree) (cwd path : String) : Except Failure String :=
  if Text.isBlank path then .error (.coded .invalidParameter "path must not be blank")
  else
    let full := Path.absolute cwd path
    match files.probe full with
    | .error p => .error (badPath full p)
    | .ok tree =>
      if tree.isDirectory then .ok full
      else .error (.coded .invalidParameter ("not a directory: " ++ full))

/-- Puts a rebuild in flight, unless one is running. -/
def accept (ix : Indexer) (path : String) (run : RunId) (now : Timestamp) :
    Except Failure Status × Indexer :=
  if ix.status.phase = .running then
    (.error (.coded .conflict "a rescan is already running"), ix)
  else
    let status := Status.started run path now
    (.ok status,
      { ix with
        status := status
        lastError := none
        flights := ix.flights ++ [⟨run, .building (.new now)⟩]
        latest := some run })

/-- Asks for a rebuild of the project at a path. -/
def rescan (ix : Indexer) (files : Source.FileTree) (cwd path : String) (run : RunId)
    (now : Timestamp) : Except Failure Status × Indexer :=
  match checkPath files cwd path with
  | .error f => (.error f, ix)
  | .ok full => ix.accept full run now

/-! ## the steps of a rebuild -/

/-- How far the rebuild with a given name has come. -/
def stage? (ix : Indexer) (run : RunId) : Option Stage :=
  (ix.flights.find? (·.run = run)).map (·.stage)

/-- Moves the rebuild with a given name on. -/
def advance (ix : Indexer) (run : RunId) (stage : Stage) : Indexer :=
  { ix with flights := ix.flights.map fun x => if x.run = run then ⟨run, stage⟩ else x }

/-- Work is done on the builder of a rebuild. -/
def ingest (ix : Indexer) (run : RunId) (work : Builder → Builder) : Indexer :=
  match ix.stage? run with
  | some (.building b) => ix.advance run (.building (work b))
  | _ => ix

/-- The build of a rebuild ends. -/
def conclude (ix : Indexer) (run : RunId) (ending : Ending) : Indexer :=
  match ix.stage? run with
  | some (.building b) =>
    ix.advance run (match ending.problem with
      | none => .built b.graph
      | some f => .broken f)
  | _ => ix

/-- A graph that was built is published. -/
def publish (ix : Indexer) (run : RunId) : Indexer :=
  match ix.stage? run with
  | some (.built g) =>
    { ix.advance run (if ix.persists then .published g else .settled g none) with store := ⟨g⟩ }
  | _ => ix

/-- Saving the graph of a rebuild ends, perhaps with a problem. -/
def save (ix : Indexer) (run : RunId) (problem : Option Failure) : Indexer :=
  match ix.stage? run with
  | some (.published g) => ix.advance run (.settled g problem)
  | _ => ix

/-- The rebuild is over and the status tells how it ended. -/
def finish (ix : Indexer) (run : RunId) (now : Timestamp) : Indexer :=
  let others := ix.flights.filter (·.run ≠ run)
  match ix.stage? run with
  | some (.broken f) =>
    { ix with
      flights := others
      lastError := some f
      status := { ix.status with finishedAt := some now, phase := .failed, error := f.message } }
  | some (.settled g problem) =>
    { ix with
      flights := others
      lastError := match problem with
        | some p => some (.codedOver .internal "graph published but not saved" p)
        | none => ix.lastError
      status :=
        { ix.status with
          finishedAt := some now
          phase := .completed
          nodes := g.nodeCount
          edges := g.edgeCount
          persistError := match problem with
            | some p => p.message
            | none => ix.status.persistError } }
  | _ => ix

/-- All steps of a rebuild, one after the other; `b` is its builder after the work. -/
def complete (ix : Indexer) (run : RunId) (b : Builder) (ending : Ending) (problem : Option Failure)
    (now : Timestamp) : Indexer :=
  ((((ix.ingest run fun _ => b).conclude run ending).publish run).save run problem).finish run now

end Indexer

end Ripple.Rebuild
