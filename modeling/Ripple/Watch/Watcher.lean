import Ripple.Failure
import Ripple.Source.FileTree
import Ripple.Watch.SourceFile

/-!
# Ripple.Watch.Watcher

Rebuilds on source changes.  A change of a source file makes the file *pending* and arms a timer, so
that a burst of changes leads to one rebuild.  When the timer fires, a trigger takes all pending
files as one *batch* and asks for a rebuild.  While a rebuild is running that is refused, and then
the batch becomes pending again.

Triggers can overlap: the timer can fire again while a rebuild is being asked for.  So the timer,
the triggers that have taken nothing yet and the batches that triggers hold are parts of the state,
and each move of a trigger is a step of its own.
-/

namespace Ripple.Watch

/-- What happened to a path. -/
inductive Change where
  | create | write | remove | rename
  /-- Its permissions changed, which does not change its content. -/
  | permissions
  deriving DecidableEq, Repr

/-- Whether a change can change what a file holds. -/
def Change.isContent (c : Change) : Bool := c != .permissions

/-- The timer that holds a rebuild back until changes have calmed down. -/
inductive Timer where
  | unset | armed | spent
  deriving DecidableEq, Repr

/-- What the watcher tells its user. -/
inductive Notice where
  /-- A rebuild has started because of these files. -/
  | started (files : List String)
  | problem (f : Failure)

/-- How asking for a rebuild ended. -/
inductive Reply where
  | accepted
  /-- A rebuild was running. -/
  | refused
  | failed (f : Failure)

/-- The reply behind the result of asking for a rebuild. -/
def Reply.ofResult : Except Failure α → Reply
  | .ok _ => accepted
  | .error f => if f.hasCode .conflict then refused else failed f

/-- The state of watching a project. -/
structure Watcher where
  /-- The directory of the project. -/
  root : String
  /-- The directories that are watched, in order. -/
  watched : List String
  /-- The files that changed since the last batch was taken, in order. -/
  pending : List String
  timer : Timer
  /-- How many triggers were started and have not taken a batch yet. -/
  starting : Nat
  /-- The batches of the triggers that wait for a reply. -/
  held : List (List String)
  stopped : Bool
  deriving Repr

/-- Adds a text to a list in order, unless it is there. -/
def insert (s : String) : List String → List String
  | [] => [s]
  | t :: rest => if s = t then t :: rest else if s < t then s :: t :: rest else t :: insert s rest

/-- Adds several texts to a list in order. -/
def insertAll (ss : List String) (into : List String) : List String :=
  ss.foldl (fun acc s => insert s acc) into

namespace Watcher

/-- The text of asking a stopped watcher to watch something. -/
def closedText : String := "fsnotify: watcher already closed"

/-- The directories of a path that are watched: it and those below it that are scanned for sources.
-/
def directories (files : Source.Files) (path : String) : Except Failure (List String) :=
  (files.scannedDirectories path).mapError fun p => .ofText ("lstat " ++ path ++ ": " ++ p.message)

/-- Starts to watch a project. -/
def new (files : Source.Files) (root : String) : Except Failure Watcher :=
  match directories files root with
  | .ok found => .ok ⟨root, insertAll found [], [], .unset, 0, [], false⟩
  | .error f => .error (.within "failed to add directories to watch" f)

/-- Whether a path is a directory now. -/
def isDirectory (files : Source.Files) (path : String) : Bool :=
  match files.walk path with
  | .ok tree => tree.isDirectory
  | .error _ => false

/-- Starts to watch a new directory. -/
def addDirectory (w : Watcher) (files : Source.Files) (path : String) : List Notice × Watcher :=
  if Source.isSkipped (Path.base path) then ([], w)
  else if w.stopped then ([.problem (.ofText closedText)], w)
  else match directories files path with
    | .ok found => ([], { w with watched := insertAll found w.watched })
    | .error f => ([.problem f], w)

/-- Makes files pending and arms the timer. -/
def defer (w : Watcher) (paths : List String) : Watcher :=
  { w with pending := insertAll paths w.pending, timer := .armed }

/-- Whether changes of a path make it pending. -/
def counts (path : String) (changes : List Change) : Bool :=
  isSourceFile path && changes.any Change.isContent

/-- Something happened to a path. -/
def notify (w : Watcher) (files : Source.Files) (path : String) (changes : List Change) :
    List Notice × Watcher :=
  if changes.contains .create && isDirectory files path then w.addDirectory files path
  else if counts path changes then ([], w.defer [path])
  else ([], w)

/-- The armed timer fires, which starts a trigger. -/
def fire (w : Watcher) : Watcher :=
  if w.timer = .armed then { w with timer := .spent, starting := w.starting + 1 } else w

/-- A trigger takes the pending files, if there are some, and then waits for the reply. -/
def take (w : Watcher) : Option (List String) × Watcher :=
  if w.stopped || w.pending.isEmpty then (none, w)
  else (some w.pending, { w with pending := [], held := w.held ++ [w.pending] })

/-- A trigger that was started takes its batch. -/
def collect (w : Watcher) : Option (List String) × Watcher :=
  if w.starting = 0 then (none, w) else { w with starting := w.starting - 1 }.take

/-- The trigger that holds a batch gets its reply. -/
def settle (w : Watcher) (batch : List String) (reply : Reply) : List Notice × Watcher :=
  if w.held.contains batch then
    let w := { w with held := w.held.erase batch }
    match reply with
    | .accepted => ([.started batch], w)
    | .refused => ([], w.defer batch)
    | .failed f => ([.problem (.within "rescan failed" f)], w)
  else ([], w)

/-- Stops watching.  Changes that are told later still become pending, but no trigger takes them. -/
def stop (w : Watcher) : Watcher := { w with watched := [], stopped := true }

end Watcher

end Ripple.Watch
