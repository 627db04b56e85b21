import Ripple.Go.Condition
import Ripple.Go.Grammar.Statement
import Ripple.Go.Type
import Ripple.Source.FileTree

/-!
# Ripple.Go.Module

The packages of a Go module: one for each directory that has source files for this platform.  Test
files belong to no package here.
-/

namespace Ripple.Go

open Source

/-! ## packages -/

/-- A package with its source files. -/
structure SourcePackage where
  ref : PackageRef
  /-- Whether it belongs to the project; other packages can only be imported. -/
  own : Bool
  files : List SourceFile

/-- The source files of a package that name it. -/
def SourcePackage.ownFiles (p : SourcePackage) : List SourceFile :=
  p.files.filter fun f => f.package.name == p.ref.name

/-- Whether a file of this name is a source file of a package. -/
def isPackageFile (name : String) : Bool :=
  Text.hasSuffix name ".go" && !Text.hasSuffix name "_test.go" && !Text.hasPrefix name "_" &&
    !Text.hasPrefix name "." && nameMatches name

/-- The source file with a name and a text, if it takes part. -/
def packageFile? (path name source : String) : Option SourceFile :=
  let header := Header.ofSource source
  if isPackageFile name && header.holds then
    ((parse? (path ++ "/" ++ name) source).filter fun f => f.package.name != "documentation").map
      fun f => { f with version := header.version }
  else none

/-- The source files among the entries of a directory. -/
def packageFiles (path : String) (entries : List (String × FileTree)) : List SourceFile :=
  entries.filterMap fun (name, t) =>
    match t with
    | .file source => packageFile? path name source
    | .directory _ => none

/-- The package of a directory, if it has source files; its name is that of the first. -/
def directoryPackage (own : Bool) (importPath path : String) (entries : List (String × FileTree)) :
    List SourcePackage :=
  match packageFiles path entries with
  | [] => []
  | f :: fs => [⟨⟨importPath, f.package.name⟩, own, f :: fs⟩]

/-- Whether a directory below the root of a module belongs to it. -/
def isModuleDirectory (name : String) (entries : List (String × FileTree)) : Bool :=
  let nested := entries.any fun (n, t) => n == "go.mod" && !t.isDirectory
  !(name == "vendor" || nested)

/-- Whether the packages of a directory belong to the project. -/
def isOwnDirectory (name : String) : Bool :=
  !(Text.hasPrefix name "." || Text.hasPrefix name "_" || name == "testdata")

mutual

/-- The packages of the directory at a path and below it. -/
def packagesAt (own : Bool) (importPath path : String) : FileTree → List SourcePackage
  | .file _ => []
  | .directory entries =>
    directoryPackage own importPath path entries ++ packagesBelow own importPath path entries

/-- The packages of the directories among some entries. -/
def packagesBelow (own : Bool) (importPath path : String) :
    List (String × FileTree) → List SourcePackage
  | [] => []
  | (_, .file _) :: rest => packagesBelow own importPath path rest
  | (name, .directory entries) :: rest =>
    let own_ := own && isOwnDirectory name
    (if isModuleDirectory name entries then
      directoryPackage own_ (importPath ++ "/" ++ name) (path ++ "/" ++ name) entries ++
        packagesBelow own_ (importPath ++ "/" ++ name) (path ++ "/" ++ name) entries
     else []) ++ packagesBelow own importPath path rest

end

/-! ## module files -/

/-- The words of each line of a module file, without comments. -/
def moduleLines (text : String) : List (List String) :=
  let plain (l : String) : String :=
    String.ofList (l.toList.map fun c => if c == '\t' || c == '\r' then ' ' else c)
  (Text.splitOn '\n' text).map fun l =>
    ((Text.splitOn ' ' (plain l)).filter (!·.isEmpty)).takeWhile fun w => !Text.hasPrefix w "//"

/-- The import path that a module file declares. -/
def modulePath (text : String) : String :=
  let unquoted (w : String) : String :=
    String.ofList (w.toList.filter fun c => c != '"' && c != '\x60')
  ((moduleLines text).findSome? fun
    | ["module", w] => some (unquoted w)
    | _ => none).getD ""

/-- The minor version of the language for which a module is written, where none is declared. -/
def undeclaredVersion : Nat := 16

/-- The minor version of the language for which a module is written. -/
def moduleVersion (text : String) : Nat :=
  ((moduleLines text).findSome? fun
    | ["go", w] =>
      match Text.splitOn '.' w with
      | _ :: minor :: _ => Text.Integer.value? 10 0 (minor.toList.takeWhile Char.isDigit)
      | _ => none
    | _ => none).getD undeclaredVersion

/-- A module with its packages. -/
structure Module where
  version : Nat
  /-- The packages in the order of their import paths. -/
  packages : List SourcePackage

/-- The module at a root. -/
def Module.at (t : FileTree) (root : String) : Module :=
  match t.at? root, t.read? (root ++ "/go.mod") with
  | some tree, some text =>
    ⟨moduleVersion text,
      (packagesAt true (modulePath text) root tree).mergeSort fun a b => a.ref.path ≤ b.ref.path⟩
  | _, _ => ⟨undeclaredVersion, []⟩

end Ripple.Go
