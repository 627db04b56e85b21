import Ripple.Text.Search
import Ripple.Text.Spelling

/-!
# Ripple.Path

Slash-separated paths.  `clean` is the shortest path that means the same by rules on the text alone.
-/

namespace Ripple.Path

open Spelling (letters ofLetters letter spell)

section
variable {τ α : Type} [Spelling τ α] [DecidableEq τ] [DecidableEq α]

/-- Whether a path starts at the root. -/
def isAbsolute (path : τ) : Bool := (letters path).head? = some (letter τ '/')

/-- What stands between the slashes of a path. -/
def pieces (path : τ) : List τ :=
  (Text.splitLetters (letter τ '/') (letters path)).map ofLetters

/-- Parts with slashes between them. -/
def glue : List τ → τ
  | [] => spell ""
  | [a] => a
  | a :: b :: rest => ofLetters (letters a ++ letter τ '/' :: letters (glue (b :: rest)))

/-- Resolves `.` and `..` in the parts of a path; `done` are the parts kept, the last first.  Above
the root there is nothing. -/
def resolve (absolute : Bool) : List τ → List τ → List τ
  | done, [] => done.reverse
  | done, part :: rest =>
    if part = spell "" ∨ part = spell "." then resolve absolute done rest
    else if part = spell ".." then
      match done with
      | last :: before =>
        if last = spell ".." then resolve absolute (spell ".." :: done) rest
        else resolve absolute before rest
      | [] => resolve absolute (if absolute then [] else [spell ".."]) rest
    else resolve absolute (part :: done) rest

/-- The names along a path, with dots resolved.  Names of a path that is not absolute can begin with
`..`. -/
def names (path : τ) : List τ := resolve (isAbsolute path) [] (pieces path)

/-- The path along some names; `.` for a path that is not absolute and has none. -/
def ofNames (absolute : Bool) (ns : List τ) : τ :=
  if absolute then ofLetters (letter τ '/' :: letters (glue ns))
  else if ns.isEmpty then spell "."
  else glue ns

/-- The shortest path equal to a given one; `.` for the empty path. -/
def clean (path : τ) : τ := ofNames (isAbsolute path) (names path)

/-- The parts of a path that are not empty, one below the other. -/
def join (parts : List τ) : τ :=
  match parts.filter (!Spelling.isEmpty ·) with
  | [] => spell ""
  | ps => clean (glue ps)

/-- A path seen from a directory. -/
def absolute (directory path : τ) : τ :=
  if isAbsolute path then clean path else join [directory, path]

/-- A path as it is written, seen from a directory. -/
def below (directory path : τ) : τ := if isAbsolute path then path else glue [directory, path]

end

/-- The last part of a path, without slashes at its end. -/
def base (path : String) : String :=
  let trimmed := String.ofList (path.toList.reverse.dropWhile (· == '/')).reverse
  if path.isEmpty then "." else if trimmed.isEmpty then "/" else Text.afterLast '/' trimmed

/-- What stands in front of the last slash of a path, and that slash. -/
def parent (path : String) : String :=
  String.ofList (path.toList.reverse.dropWhile (· != '/')).reverse

/-- The end of the last part from its last dot on. -/
def extension (path : String) : String :=
  let last := (path.toList.reverse.takeWhile (· != '/')).reverse
  if last.contains '.' then "." ++ Text.afterLast '.' (String.ofList last) else ""

end Ripple.Path
