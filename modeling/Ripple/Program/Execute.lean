import Ripple.Display.Risk
import Ripple.Program.Session
import Ripple.Web.Address

/-!
# Ripple.Program.Execute

The commands.  A command prints, changes the world, and ends well or with a failure; some end by
leaving something standing that runs until it is stopped.
-/

namespace Ripple.Program

/-- Something that runs until it is stopped. -/
inductive Standing where
  | web (address : String)
  | tools
  | watching (watcher : Watch.Watcher) (debounce : Int)

/-- What is printed when it is stopped. -/
def Standing.farewell : Standing → String
  | watching _ _ => "Stopping...\n"
  | web _ | tools => ""

/-- What a command has done so far. -/
structure Progress where
  world : World
  output : String

/-- A part of a command. -/
abbrev Action := ExceptT Failure (StateM Progress)

/-- Prints a text. -/
def print (text : String) : Action Unit :=
  modify fun p => { p with output := p.output ++ text }

/-- Fails if there is a failure. -/
def check (f : Option Failure) : Action Unit :=
  match f with
  | some f => throw f
  | none => pure ()

/-- Goes on if a result is there, and fails otherwise. -/
def need (r : Except Failure α) : Action α :=
  match r with
  | .ok a => pure a
  | .error f => throw f

/-! ## sessions -/

/-- Opens a session.  The database is there from then on. -/
def begin (settings : Settings) : Action Session := do
  let s ← need (Session.start (← get).world settings)
  modify fun p => { p with world := p.world.keepDatabase settings.databasePath s.database }
  return s

/-- Rebuilds the graph of a project; the result is kept in the database. -/
def rebuild (s : Session) (project : String) : Action (Except Failure Unit × Session) := do
  let (r, s) := s.rebuild (← get).world project
  modify fun p => { p with world := p.world.keepDatabase s.settings.databasePath s.database }
  return (r, s)

/-! ## commands -/

/-- The status of a rebuild that was never accepted. -/
def noStatus : StatusView := ⟨"", "", "", none, none, "", "", 0, 0⟩

/-- Builds the graph of a project and stores it. -/
def analyze (s : Session) (project : String) : Action Unit := do
  let (r, s) ← rebuild s project
  match r with
  | .error f =>
    print noStatus.text
    throw f
  | .ok () =>
    print s.status.view.text
    check s.problem
    let g := s.service.indexer.store.snapshot
    print (s!"          {g.countOf .file} files, {g.countOf .type} types, " ++
      s!"{g.countOf .field} fields, {g.countOf .method} methods\n")
    let stats ← need (s.database.stats.mapError (.within "read stored graph"))
    let saved := (stats.savedAt.map Moment.ofTimestamp).getD Moment.unset
    print (s!"Saved to: {s.settings.databasePath} ({stats.nodes} nodes, {stats.edges} edges " ++
      s!"at {saved.plain})\n")

/-- An answer in a form. -/
def rendered (format : String) (a : Answer) : Except Failure String :=
  match format, a with
  | "json", a => .ok (a.toJson.pretty ++ "\n")
  | "markdown", a => .ok a.markdown
  | "text", .report r => .ok (r.tree ++ "\n" ++ r.summary ++ "\n")
  | "text", .methods l => .ok l.tree
  | _, _ => .error (.ofText ("unknown format: " ++ format))

/-- Answers a question. -/
def query (s : Session) (q : Question) (format : String) : Action Unit := do
  let a ← need (ask (s.service.scope (Session.occasion (← get).world)) q)
  print (← need (rendered format a))

/-- What to keep in mind with a level of risk. -/
def advice (level : String) : String :=
  if level = RiskLevel.critical.word then
    "Change with great care: review every caller and add tests before touching it."
  else if level = RiskLevel.high.word then
    "Review the main callers and run the affected tests after changing it."
  else if level = RiskLevel.medium.word then "Check the direct callers after changing it."
  else "Low impact: it can be changed with confidence."

/-- Shows the risk of a method. -/
def methodRisk (s : Session) (signature format : String) : Action Unit := do
  let score ← need (s.database.riskScore signature)
  if format = "json" then print (score.toJson.pretty ++ "\n")
  else print (Display.riskScore score ++ "\n" ++ advice score.level ++ "\n")

/-- Shows the methods with most callers. -/
def topRisks (s : Session) (limit : Int) (format : String) : Action Unit := do
  let scores ← need ((s.database.topRisky limit).mapError (.within "query risky methods"))
  if format = "json" then
    let list : Json := if scores.isEmpty then .null else .array (scores.map (·.toJson))
    print (list.pretty ++ "\n")
  else if scores.isEmpty then print "No methods in the graph. Run 'beyondsight analyze' first.\n"
  else
    print s!"Riskiest methods (top {limit})\n\n"
    print (Display.riskTable scores)
    print "\nUse 'beyondsight risk <signature>' for details.\n"

/-- Writes the graph as a document, to a file or to the output. -/
def exportTo (s : Session) (target : String) (options : Export.Options) : Action Unit := do
  let w := (← get).world
  let text := Export.document s.service.indexer.store.snapshot options
    (Moment.ofTimestamp w.now).plain
  if target = "" || target = "-" then print text
  else
    match w.write target text with
    | .ok w => modify fun p => { p with world := w }
    | .error problem => throw (.within "create output file"
        (.ofText ("open " ++ target ++ ": " ++ problem.message)))

/-- The watcher of a project. -/
def watcherOf (project : String) : Action Watch.Watcher := do
  need (Watch.Watcher.new (← get).world.surroundings.visible project)

/-- Builds the graph of a project, if one is named; it is asked for and not waited for. -/
def rescanFirst (s : Session) : Option String → Action Session
  | none => return s
  | some project => do
    let (r, s) ← rebuild s project
    need r
    return s

/-- Serves the web. -/
def serve (s : Session) (project : Option String) (watch : Bool) (address : String) :
    Action Standing := do
  let s ← rescanFirst s project
  if watch then
    if let some p := project then discard (watcherOf p)
  let address := if address = "" then s.settings.serverAddr else address
  need ((Web.Address.check address).mapError fun p => .ofText p.message)
  return .web address

/-- Builds the graph of a project, and watches it. -/
def watch (s : Session) (project : String) (debounce : Option Int) : Action Standing := do
  print "Running initial analysis...\n"
  let (r, s) ← rebuild s project
  need r
  check s.problem
  print s!"Initial analysis done: {s.status.nodes} nodes, {s.status.edges} edges\n"
  let delay := debounce.getD s.settings.debounce
  let w ← watcherOf project
  print (s!"Watching {s.status.path} (debounce {Duration.render delay}), " ++
    "press Ctrl+C to stop\n")
  return .watching w delay

/-- Does what is asked for. -/
def perform (g : Globals) (i : Invocation) : Action (Option Standing) := do
  let settings ← need (Session.settingsFor (← get).world g)
  let s ← begin settings
  match i with
  | .analyze project => analyze s project; return none
  | .query q format => query s q format; return none
  | .serve project watching address => return some (← serve s project watching address)
  | .tools project => discard (rescanFirst s project); return some .tools
  | .watch project debounce => return some (← watch s project debounce)
  | .export target options => exportTo s target options; return none
  | .risk (some signature) _ format => methodRisk s signature format; return none
  | .risk none limit format => topRisks s limit format; return none

/-! ## runs -/

/-- What a run of the program comes to. -/
structure Run where
  output : String
  failure : Option Failure
  standing : Option Standing
  world : World

/-- Runs the program with arguments. -/
def run (w : World) (arguments : List String) : Run :=
  match suite.read arguments with
  | .error e => ⟨"", some (.ofText e.message), none, w⟩
  | .ok .help => ⟨"", none, none, w⟩
  | .ok (.run purpose p) =>
    match (perform (globals p) (invocation p purpose)).run ⟨w, ""⟩ with
    | (.ok standing, progress) => ⟨progress.output, none, standing, progress.world⟩
    | (.error f, progress) => ⟨progress.output, some f, none, progress.world⟩

end Ripple.Program
