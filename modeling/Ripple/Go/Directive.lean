import Ripple.Path

/-!
# Ripple.Go.Directive

Line directives: comments that change the file and line under which the code after them is
reported.  `//line file:line` holds from the next line on and must start its line; the same between
`/*` and `*/` holds right after the comment.  A column may follow the line.
-/

namespace Ripple.Go

/-- What a directive says. -/
structure Directive where
  /-- The file as it is written; it may be empty. -/
  file : String
  line : Nat
  /-- A column follows the line. -/
  column : Bool
  deriving DecidableEq, Repr

namespace Directive

/-- Lines and columns beyond this number are refused. -/
def limit : Nat := 1073741824

/-- The text in front of the last colon and the number behind it, if that is a number. -/
def lastNumber? (text : String) : Option (String × Option Nat) :=
  if text.toList.contains ':' then
    let digits := (Text.afterLast ':' text).toList
    let front := String.ofList (text.toList.take (text.length - digits.length - 1))
    let value := digits.foldl (fun n c => 10 * n + (c.toNat - '0'.toNat)) 0
    some (front, if !digits.isEmpty && digits.all Char.isDigit then some value else none)
  else none

/-- Whether a number can be a line or a column. -/
def isCount (n : Nat) : Bool := 0 < n && n ≤ limit

/-- The directive with a text. -/
def ofText? (text : String) : Option Directive :=
  match lastNumber? text with
  | some (front, some n) =>
    match lastNumber? front with
    | some (file, some m) => if isCount n && isCount m then some ⟨file, m, true⟩ else none
    | _ => if isCount n then some ⟨front, n, false⟩ else none
  | _ => none

/-- The directive in a comment.  One to the end of the line may have a carriage return there. -/
def ofComment? : List Char → Option Directive
  | '/' :: '/' :: 'l' :: 'i' :: 'n' :: 'e' :: ' ' :: cs =>
    ofText? (String.ofList (if cs.getLast? == some '\r' then cs.dropLast else cs))
  | '/' :: '*' :: 'l' :: 'i' :: 'n' :: 'e' :: ' ' :: cs =>
    ofText? (String.ofList (cs.take (cs.length - 2)))
  | _ => none

/-- The file that a directive names, where `path` is that of the source and `current` the file
reported so far: with a column and no name the file stays. -/
def target (d : Directive) (path current : String) : String :=
  if d.file.isEmpty then if d.column then current else ""
  else if Path.isAbsolute d.file then Path.clean d.file
  else Path.join [Path.parent path, d.file]

end Directive

/-! ## places -/

/-- A place in a source, and what directives make of it. -/
structure Place where
  /-- The line in the source. -/
  line : Nat
  /-- Nothing of the line lies before the place. -/
  fresh : Bool
  /-- The line reported for a line of the source, and that line. -/
  report : Option (Nat × Nat)
  deriving DecidableEq, Repr

namespace Place

/-- The start of a source; a byte order mark may stand in front. -/
def start (marked : Bool) : Place := ⟨1, !marked, none⟩

/-- The line under which a place is reported. -/
def reported (p : Place) : Nat :=
  match p.report with
  | some (line, base) => line + (p.line - base)
  | none => p.line

/-- The directive in a comment that stands at a place. -/
def directive? (p : Place) (comment : List Char) : Option Directive :=
  if comment.take 2 == ['/', '*'] || p.fresh then Directive.ofComment? comment else none

/-- The place after some characters. -/
def pass (p : Place) (cs : List Char) : Place :=
  { p with
    line := p.line + cs.count '\n'
    fresh := match cs.getLast? with
      | some c => c == '\n'
      | none => p.fresh }

/-- The place after a blank or a comment. -/
def passGap (p : Place) (cs : List Char) : Place :=
  let after := p.pass cs
  match p.directive? cs with
  | some d =>
    let next := if cs.take 2 == ['/', '*'] then after.line else after.line + 1
    { after with report := some (d.line, next) }
  | none => after

end Place

end Ripple.Go
