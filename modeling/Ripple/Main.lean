import Ripple.Program.Execute
import Ripple.Snapshot.Archive
import Std.Time.Format

/-!
# Ripple.Main

The program on the command line: it reads what a command needs from the disk, runs the command, and
writes back what the command leaves behind.
-/

namespace Ripple.Program.Shell

/-- Reads a file or a directory with all that is below it.  Only the contents of sources and of
settings matter. -/
partial def readTree (e : IO.FS.DirEntry) : IO Source.FileTree := do
  if ← e.path.isDir then
    let mut entries : List (String × Source.FileTree) := []
    for below in ← e.path.readDir do
      unless Source.isSkipped below.fileName && (← below.path.isDir) do
        entries := Source.FileTree.putEntry below.fileName (← readTree below) entries
    return .directory entries
  else if [".go", ".java", ".mod", ".yaml", ".yml", ".json"].any (Text.hasSuffix e.fileName) then
    return .file (← IO.FS.readFile e.path)
  else return .file "other"

/-- The tree of the disk as far as some absolute paths go. -/
def readPaths (paths : List String) : IO Source.FileTree := do
  let mut tree := Source.FileTree.empty
  for path in paths do
    let e : IO.FS.DirEntry := ⟨World.parent path, Path.base path⟩
    if ← e.path.pathExists then
      tree := Source.FileTree.put (← readTree e) (Source.FileTree.parts path) tree
  return tree

/-- The variables that matter. -/
def readVariables : IO (List (String × String)) := do
  let mut found := []
  for name in Settings.variableNames do
    if let some value ← IO.getEnv name then found := found ++ [(name, value)]
  return found

/-- The time, in nanoseconds. -/
def now : IO Timestamp := do
  return (← Std.Time.Timestamp.now).toNanosecondsSinceUnixEpoch.val

/-- The paths that arguments may speak of: any of them can be a project or a settings file. -/
def pathsOf (cwd home : String) (arguments : List String) : List String :=
  let named := arguments.filter fun a => !Text.hasPrefix a "-"
  let defaults := Settings.knownEndings.flatMap fun ending =>
    [Path.join [cwd, ".beyondsight." ++ ending], Path.join [home, ".beyondsight." ++ ending]]
  (cwd :: named.map (Path.absolute cwd)) ++ defaults

/-- The database in a file. -/
def readDatabase (path : String) : IO (List (String × Snapshot.Database)) := do
  let e : IO.FS.DirEntry := ⟨World.parent path, Path.base path⟩
  if ← e.path.pathExists then
    match (Json.parse? (← IO.FS.readFile e.path)).bind Snapshot.Tables.ofJson? with
    | some tables => return [(path, ⟨tables, true⟩)]
    | none => return []
  else return []

/-- Where the database of a command is. -/
def databasePath? (around : Settings.Surroundings) (arguments : List String) : Option String :=
  match suite.read arguments with
  | .ok (.run _ p) =>
    match Settings.load around (globals p).settingsFile with
    | .ok s => some (Path.absolute around.cwd ((globals p).database.getD s.databasePath))
    | .error _ => none
  | _ => none

/-- What surrounds a command. -/
def readWorld (arguments : List String) : IO World := do
  let cwd := toString (← IO.currentDir)
  let home := (← IO.getEnv "HOME").getD "/"
  let files ← readPaths (pathsOf cwd home arguments)
  let around : Settings.Surroundings := ⟨← readVariables, files, cwd, home⟩
  let time ← now
  let databases ← match databasePath? around arguments with
    | some path => readDatabase path
    | none => pure []
  return ⟨around, databases, time, s!"run-{time}"⟩

/-- Writes the databases of a world, and the document if one was written. -/
def writeWorld (before after : World) (arguments : List String) : IO Unit := do
  for (path, db) in after.databases do
    IO.FS.writeFile path db.tables.toJson.compact
  for a in arguments do
    let path := Path.absolute after.surroundings.cwd a
    if let some text := after.surroundings.files.read? path then
      if before.surroundings.files.read? path != some text then IO.FS.writeFile path text

/-- Runs a command once. -/
def once (arguments : List String) : IO Run := do
  let w ← readWorld arguments
  let r := run w arguments
  IO.print r.output
  writeWorld w r.world arguments
  return r

/-- The files below a directory, as they are seen now. -/
def readFiles (root : String) : IO Source.Files := do
  let cwd := toString (← IO.currentDir)
  return ⟨← readPaths [Path.absolute cwd root], cwd⟩

/-- The sources below a directory, as far as they are scanned. -/
def sources (files : Source.Files) (root : String) : List (String × String) :=
  Watch.sourceEndings.flatMap (files.filesEnding root)

/-- The paths whose files differ. -/
def changedPaths (before after : List (String × String)) : List String :=
  (before.filter fun f => !after.contains f).map (·.1) ++
    (after.filter fun f => !before.contains f).map (·.1)

/-- Looks at a project again and again, and rebuilds its graph after a change. -/
partial def poll (arguments : List String) (delay : Int) (w : Watch.Watcher)
    (seen : List (String × String)) : IO Unit := do
  IO.sleep (UInt32.ofNat (delay.toNat / 1000000))
  let files ← readFiles w.root
  let found := sources files w.root
  let w := (changedPaths seen found).foldl (fun w p => (w.notify files p [.write]).2) w
  match w.fire.collect with
  | (none, w) => poll arguments delay w found
  | (some batch, w) =>
    let r := run (← readWorld arguments) arguments
    writeWorld r.world r.world []
    let reply := match r.failure with
      | some f => .failed f
      | none => .accepted
    poll arguments delay (w.settle batch reply).2 found

/-- Keeps running what a command left standing. -/
def stand (arguments : List String) : Standing → IO UInt32
  | .watching w delay => do
    poll arguments delay w (sources (← readFiles w.root) w.root)
    return 0
  | .web address => do
    IO.eprintln s!"no transport for web requests at {address}"
    return 1
  | .tools => do
    IO.eprintln "no transport for tool calls"
    return 1

end Ripple.Program.Shell

/-- Runs the program. -/
def main (arguments : List String) : IO UInt32 := do
  let r ← Ripple.Program.Shell.once arguments
  match r.failure, r.standing with
  | some f, _ =>
    IO.eprintln s!"Error: {f.message}"
    return 1
  | none, some standing => Ripple.Program.Shell.stand arguments standing
  | none, none => return 0
