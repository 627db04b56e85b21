import Ripple.Analysis
import Ripple.Log.Logger
import Ripple.Program.Invocation
import Ripple.Program.World
import Ripple.Rebuild.Wait
import Ripple.Service
import Ripple.Watch.Watcher

/-!
# Ripple.Program.Session

A command's hold on a database: the settings it runs with, the service over the stored graph, and
the rebuilds that go through to the database.
-/

namespace Ripple.Program

/-- What a command works with. -/
structure Session where
  settings : Settings
  languages : List Language
  database : Snapshot.Database
  service : Service

namespace Session

/-- The settings; what the command line says wins. -/
def settingsFor (w : World) (g : Globals) : Except Failure Settings := do
  let s ← (Settings.load w.surroundings g.settingsFile).mapError (·.toFailure)
  let s := { s with
    databasePath := g.database.getD s.databasePath
    logLevel := g.logLevel.getD s.logLevel }
  let _ ← (Log.Logger.new s.logLevel s.logFormat).mapError (·.toFailure)
  return s

/-- Opens the database and publishes the graph that is stored in it. -/
def start (w : World) (settings : Settings) : Except Failure Session := do
  let db ← w.findDatabase settings.databasePath
  let stored ← (db.load false).mapError (.within "failed to load graph")
  let languages ← Language.ofNames (settings.languages.getD [])
  return ⟨settings, languages, db, ⟨.new ⟨stored.graph⟩ true, Closure.capOf settings.maxNodes⟩⟩

/-- The circumstances of a request. -/
def occasion (w : World) : Occasion :=
  ⟨w.surroundings.files, w.surroundings.cwd, w.run, w.now, fun _ => false⟩

/-- How the build of a project ends, and its builder then. -/
def build (s : Session) (w : World) (project : String) : Rebuild.Ending × Builder :=
  let analysis := analyse w.surroundings.visible project false s.languages
  match analysis.run (Builder.new w.now) with
  | (.ok _, b) => (.done, b)
  | (.error f, b) => (.failed f, b)

/-- Asks for a rebuild and lets it end: the graph is published and saved. -/
def rebuild (s : Session) (w : World) (project : String) : Except Failure Unit × Session :=
  let around := w.surroundings
  let (r, ix) := s.service.indexer.rescan around.files around.cwd project w.run w.now
  match r with
  | .error f => (.error f, s)
  | .ok status =>
    let (ending, b) := s.build w status.path
    let (problem, db) := match ending with
      | .done =>
        match s.database.save false b.graph w.now with
        | .ok db => (none, db)
        | .error f => (some f, s.database)
      | _ => (none, s.database)
    (.ok (),
      { s with
        database := db
        service := { s.service with indexer := ix.complete w.run b ending problem w.now } })

/-- The state of the latest rebuild. -/
def status (s : Session) : Rebuild.Status := s.service.indexer.status

/-- Why the latest rebuild did not fully succeed. -/
def problem (s : Session) : Option Failure := s.service.indexer.lastError

end Session

end Ripple.Program
