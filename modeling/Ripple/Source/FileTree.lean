import Ripple.Path

/-!
# Ripple.Source.FileTree

Files and directories, and the scan for source files.  The entries of a directory are in the order
of their names, so a scan lists files by comparing paths part by part.  Names can be texts or raw
texts; a program that knows the names of its files as texts sees a tree of texts.
-/

namespace Ripple.Source

open Spelling (letters letter spell)

/-- A file with its content, or a directory with its entries in the order of their names. -/
inductive FileTree (τ : Type := String) where
  | file (content : String)
  | directory (entries : List (τ × FileTree τ))
  deriving Inhabited

variable {τ α : Type} [Spelling τ α] [DecidableEq τ] [DecidableEq α]

namespace FileTree

/-- A directory without entries. -/
def empty : FileTree τ := .directory []

/-- The entries of a directory; a file has none. -/
def entries : FileTree τ → List (τ × FileTree τ)
  | .directory es => es
  | .file _ => []

/-- Whether this is a directory. -/
def isDirectory : FileTree τ → Bool
  | .directory _ => true
  | .file _ => false

/-- Replaces the entry with a name, or adds one at its place in the order. -/
def putEntry (name : τ) (t : FileTree τ) : List (τ × FileTree τ) → List (τ × FileTree τ)
  | [] => [(name, t)]
  | (n, u) :: rest =>
    if name = n then (n, t) :: rest
    else if Spelling.bytes name < Spelling.bytes n then (name, t) :: (n, u) :: rest
    else (n, u) :: putEntry name t rest

/-- Puts a tree below a path, whose directories are made where they are missing. -/
def put (t : FileTree τ) : List τ → FileTree τ → FileTree τ
  | [], _ => t
  | name :: rest, tree =>
    let below := (tree.entries.lookup name).getD empty
    .directory (putEntry name (put t rest below) tree.entries)

/-- What stands at a path. -/
def find? : List τ → FileTree τ → Option (FileTree τ)
  | [], t => some t
  | name :: rest, t => (t.entries.lookup name).bind (find? rest)

/-- The parts of a path that are not empty. -/
def parts (path : τ) : List τ := (Path.pieces path).filter (!Spelling.isEmpty ·)

/-- What stands at an absolute path. -/
def at? (t : FileTree τ) (path : τ) : Option (FileTree τ) := t.find? (parts (Path.clean path))

/-- Adds a file, or an empty directory for a path that ends in a slash. -/
def addFile (t : FileTree) (path content : String) : FileTree :=
  let ps := parts path
  if Text.hasSuffix path "/" then
    match t.find? ps with
    | some (.directory _) => t
    | _ => put empty ps t
  else put (.file content) ps t

/-- The tree of some files below a directory. -/
def ofFiles (directory : String) (files : List (String × String)) : FileTree :=
  files.foldl (fun t (p, c) => t.addFile (directory ++ "/" ++ p) c)
    (put empty (parts directory) empty)

/-- The content of the file at a path. -/
def read? (t : FileTree) (path : String) : Option String :=
  match t.at? path with
  | some (.file c) => some c
  | _ => none

/-! ## where a path leads -/

/-- Why a path leads nowhere. -/
inductive PathProblem where
  | missing
  /-- A part of the path other than the last is a file. -/
  | throughFile
  /-- The path holds a character that no path can hold. -/
  | unusable
  /-- The path, or a part of it, has too many bytes. -/
  | tooLong
  deriving DecidableEq, Repr

/-- The text of a problem with a path. -/
def PathProblem.message : PathProblem → String
  | missing => "no such file or directory"
  | throughFile => "not a directory"
  | unusable => "invalid argument"
  | tooLong => "file name too long"

/-- Whether a name has too many bytes for an entry of a directory. -/
def isLongName (name : τ) : Bool := 255 < (Spelling.bytes name).length

/-- Whether a path has too many bytes. -/
def isLongPath (path : τ) : Bool := 4096 ≤ (Spelling.bytes path).length

/-- Follows the parts of a path as they are written; `above` are the directories above, the nearest
first.  Whatever follows a part, that part has to be a directory, even if `..` leads out of it
again. -/
def follow (above : List (FileTree τ)) : List τ → FileTree τ → Except PathProblem (FileTree τ)
  | [], t => .ok t
  | _ :: _, .file _ => .error .throughFile
  | name :: rest, .directory entries =>
    if name = spell "." then follow above rest (.directory entries)
    else if name = spell ".." then
      match above with
      | t :: ts => follow ts rest t
      | [] => follow [] rest (.directory entries)
    else if isLongName name then .error .tooLong
    else
      match entries.lookup name with
      | some t => follow (.directory entries :: above) rest t
      | none => .error .missing

/-- What stands at a path as it is written, seen from a working directory, or why nothing does.  A
path that ends in a slash means a directory. -/
def walk (t : FileTree τ) (cwd path : τ) : Except PathProblem (FileTree τ) :=
  if Spelling.isEmpty path then .error .missing
  else if letter τ '\x00' ∈ letters path then .error .unusable
  else if isLongPath path then .error .tooLong
  else
    let last := if (letters path).getLast? = some (letter τ '/') then [spell "."] else []
    follow [] (parts (Path.below cwd path) ++ last) t

/-- What stands at an absolute path after it is cleaned, or why nothing does. -/
def probe (t : FileTree τ) (path : τ) : Except PathProblem (FileTree τ) :=
  t.walk (spell "/") (Path.clean path)

end FileTree

/-! ## scans -/

/-- Whether a directory of this name is never scanned: hidden ones, and those that hold foreign or
generated code. -/
def isSkipped (name : τ) : Bool :=
  ((letters name).head? = some (letter τ '.') && name != spell ".") ||
    (["vendor", "node_modules", "testdata", "build", "target", "out"].map spell).contains name

namespace FileTree

mutual

/-- The files of a tree that stands at a path, except those below skipped directories. -/
def filesAt (skip : τ → Bool) (path : τ) : FileTree τ → List (τ × String)
  | .file content => [(path, content)]
  | .directory entries => entryFiles skip path entries

/-- The files of some entries of the directory at a path. -/
def entryFiles (skip : τ → Bool) (path : τ) : List (τ × FileTree τ) → List (τ × String)
  | [] => []
  | (name, t) :: rest =>
    (if t.isDirectory && skip name then [] else filesAt skip (Path.join [path, name]) t) ++
      entryFiles skip path rest

end

mutual

/-- The directories of a tree that stands at a path, the outer ones first, except skipped ones. -/
def directoriesAt (skip : τ → Bool) (path : τ) : FileTree τ → List τ
  | .file _ => []
  | .directory entries => path :: entryDirectories skip path entries

/-- The directories below the directory at a path. -/
def entryDirectories (skip : τ → Bool) (path : τ) : List (τ × FileTree τ) → List τ
  | [] => []
  | (name, t) :: rest =>
    (if t.isDirectory && skip name then [] else directoriesAt skip (Path.join [path, name]) t) ++
      entryDirectories skip path rest

end

mutual

/-- Whether a tree that stands at a path has a file whose path is wanted, except below skipped
directories.  The search ends with the first one. -/
def hasFileAt (skip wanted : τ → Bool) (path : τ) : FileTree τ → Bool
  | .file _ => wanted path
  | .directory entries => entryHasFile skip wanted path entries

/-- Whether some entries of the directory at a path have a file whose path is wanted. -/
def entryHasFile (skip wanted : τ → Bool) (path : τ) : List (τ × FileTree τ) → Bool
  | [] => false
  | (name, t) :: rest =>
    (!(t.isDirectory && skip name) && hasFileAt skip wanted (Path.join [path, name]) t) ||
      entryHasFile skip wanted path rest

end

end FileTree

/-- Files and directories as they are seen from a working directory. -/
structure Files (τ : Type := String) where
  tree : FileTree τ
  cwd : τ

namespace Files

/-- What stands at a path, or why nothing does. -/
def walk (f : Files τ) (path : τ) : Except FileTree.PathProblem (FileTree τ) :=
  f.tree.walk f.cwd path

/-- The files below a root whose paths end in an extension, with their contents.  The root itself is
scanned whatever its name. -/
def filesEnding (f : Files τ) (root ext : τ) : List (τ × String) :=
  match f.walk root with
  | .ok tree =>
    (tree.filesAt isSkipped root).filter fun (p, _) => (letters ext).isSuffixOf (letters p)
  | .error _ => []

/-- Whether there is a file below a root whose path ends in an extension. -/
def hasFileEnding (f : Files τ) (root ext : τ) : Bool :=
  match f.walk root with
  | .ok tree => tree.hasFileAt isSkipped (fun p => (letters ext).isSuffixOf (letters p)) root
  | .error _ => false

/-- The directories below a root that are scanned for sources, with the root itself. -/
def scannedDirectories (f : Files τ) (root : τ) : Except FileTree.PathProblem (List τ) :=
  (f.walk root).map (·.directoriesAt isSkipped root)

end Files

end Ripple.Source
