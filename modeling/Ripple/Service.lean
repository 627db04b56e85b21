import Ripple.Impact.Form
import Ripple.Rebuild.Indexer
import Ripple.Time.Date

/-!
# Ripple.Service

What the long-running surfaces offer, whatever the way to ask for it: the questions about the
published graph, a rebuild, and the state of the latest one.
-/

namespace Ripple

/-- Something to ask of the service, without its texts. -/
inductive Form where
  | query (kind : QuestionKind)
  | rescan
  | status
  deriving DecidableEq, Repr

/-- Something to ask of the service. -/
inductive Request where
  | ask (q : Question)
  | rescan (path : String)
  | status
  deriving DecidableEq, Repr

namespace Form

/-- The names of the texts of a form. -/
def parameters : Form → List String
  | query k => k.parameters
  | rescan => ["path"]
  | status => []

/-- The request with the texts that stand under the names. -/
def request (text : String → String) : Form → Request
  | query k => .ask (k.question text)
  | rescan => .rescan (text "path")
  | status => .status

end Form

/-- What the service gives back. -/
inductive Reply where
  | answer (a : Answer)
  | status (s : Rebuild.Status)

/-- A reply as JSON, with a given way to write times. -/
def Reply.toJson (renderTime : Timestamp → String) : Reply → Json
  | answer a => a.toJson
  | status s => s.view.toJson renderTime

/-- A service: an indexer, whose published graph is asked with a cap. -/
structure Service where
  indexer : Rebuild.Indexer
  /-- The largest closure, or zero for no bound. -/
  cap : Nat

/-- The circumstances of a request. -/
structure Occasion where
  files : Source.FileTree
  /-- The directory that relative paths start from. -/
  directory : String
  /-- The name of a rebuild that is accepted. -/
  run : Rebuild.RunId
  now : Timestamp
  /-- The answers to the successive polls for cancellation. -/
  cancelled : Nat → Bool

namespace Service

/-- What questions are asked of. -/
def scope (s : Service) (o : Occasion) : Scope := ⟨s.indexer.store.snapshot, s.cap, o.cancelled⟩

/-- Serves a request.  Only a rebuild changes the service. -/
def serve (s : Service) (o : Occasion) : Request → Except Failure Reply × Service
  | .ask q => (.answer <$> Ripple.ask (s.scope o) q, s)
  | .rescan path =>
    let (r, ix) := s.indexer.rescan o.files o.directory path o.run o.now
    (.status <$> r, { s with indexer := ix })
  | .status => (.ok (.status s.indexer.status), s)

/-- Serves a request one of whose texts has stray bytes.  No file has a name with any, but a path
can lead back out of a directory of such a name. -/
def serveStray (s : Service) (o : Occasion) (text : String → RawText) :
    Form → Except Failure Reply × Service
  | .query k => (.error (k.strayFailure s.indexer.store.snapshot text), s)
  | .rescan =>
    let full := Path.absolute (.ofText o.directory) (text "path")
    match full.text? with
    | some path => s.serve o (.rescan path)
    | none => (.error (Rebuild.Indexer.badPath full.shown .missing), s)
  | .status => s.serve o .status

/-- Serves a form with its texts. -/
def serveRaw (s : Service) (o : Occasion) (form : Form) (text : String → RawText) :
    Except Failure Reply × Service :=
  if form.parameters.all fun p => (text p).text?.isSome then
    s.serve o (form.request fun p => (text p).shown)
  else s.serveStray o text form

end Service

end Ripple
