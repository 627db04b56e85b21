import Ripple.Settings.Load
import Ripple.Snapshot.Database

/-!
# Ripple.Program.World

What a run of the program finds and leaves behind: files, variables, databases and the time.
-/

namespace Ripple.Program

/-- What surrounds the program. -/
structure World where
  surroundings : Settings.Surroundings
  /-- The databases, by absolute path. -/
  databases : List (String × Snapshot.Database)
  now : Timestamp
  /-- The name of the next rebuild. -/
  run : String

namespace World

/-- The directory that a path stands in. -/
def parent (path : String) : String := Path.join [path, ".."]

/-- Whether there is a directory at a path. -/
def isDirectory (w : World) (path : String) : Bool :=
  match w.surroundings.files.probe path with
  | .ok tree => tree.isDirectory
  | .error _ => false

/-! ## databases -/

/-- Whether a database is gone when the program ends. -/
def isVolatile (path : String) : Bool := path = "" || path = ":memory:"

/-- The database at a path.  One that is not there is made, in a directory that is there; a file
with a content is no database. -/
def findDatabase (w : World) (path : String) : Except Failure Snapshot.Database :=
  if isVolatile path then .ok .new
  else
    let full := Path.absolute w.surroundings.cwd path
    let failed (text : String) : Except Failure Snapshot.Database :=
      .error (.within "failed to open database" (.ofText text))
    match w.databases.lookup full with
    | some db => .ok db.reopen
    | none =>
      match w.surroundings.files.probe full with
      | .ok (.file content) => if content.isEmpty then .ok .new else failed "file is not a database"
      | .error .missing =>
        if w.isDirectory (parent full) then .ok .new else failed "unable to open database file"
      | _ => failed "unable to open database file"

/-- Keeps a database at a path. -/
def keepDatabase (w : World) (path : String) (db : Snapshot.Database) : World :=
  if isVolatile path then w
  else
    let full := Path.absolute w.surroundings.cwd path
    { w with databases := (full, db) :: w.databases.filter (·.1 ≠ full) }

/-! ## files -/

/-- Why a file cannot be written. -/
inductive WriteProblem where
  | path (p : Source.FileTree.PathProblem)
  | directory
  deriving DecidableEq, Repr

/-- The text of a problem. -/
def WriteProblem.message : WriteProblem → String
  | path p => p.message
  | directory => "is a directory"

/-- Why no file can be written at a path.  The directories on the way have to be there, and a path
that ends in a slash means a directory. -/
def writeProblem? (w : World) (path : String) : Option WriteProblem :=
  let full := Path.below w.surroundings.cwd path
  let parts := Source.FileTree.parts full
  let last := parts.getLast?.getD "."
  let place := "/" ++ Text.join "/" parts.dropLast ++ "/"
  match w.surroundings.visible.walk path, w.surroundings.visible.walk place with
  | .ok (.directory _), _ => some .directory
  | _, .error p => some (.path p)
  | .error .unusable, _ => some (.path .unusable)
  | _, .ok _ =>
    if Text.hasSuffix full "/" then some .directory
    else if Source.FileTree.isLongName last || Source.FileTree.isLongPath path then
      some (.path .tooLong)
    else none

/-- Writes a file. -/
def write (w : World) (path content : String) : Except WriteProblem World :=
  match w.writeProblem? path with
  | some p => .error p
  | none =>
    let full := Path.absolute w.surroundings.cwd path
    let files := w.surroundings.files.addFile full content
    .ok { w with surroundings := { w.surroundings with files := files } }

end World

end Ripple.Program
