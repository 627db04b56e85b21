import Ripple.Source.Token
import Ripple.Text.Blank
import Ripple.Text.Integer
import Ripple.Text.Search

/-!
# Ripple.Go.Condition

The conditions under which a source file takes part: its name can ask for a platform, and comments
at its top for build tags.
-/

namespace Ripple.Go

open Source

/-! ## tags -/

/-- The operating systems that a file name can ask for. -/
def knownSystems : List String :=
  ["aix", "android", "darwin", "dragonfly", "freebsd", "hurd", "illumos", "ios", "js", "linux",
    "nacl", "netbsd", "openbsd", "plan9", "solaris", "wasip1", "windows", "zos"]

/-- The processors that a file name can ask for. -/
def knownProcessors : List String :=
  ["386", "amd64", "amd64p32", "arm", "armbe", "arm64", "arm64be", "loong64", "mips", "mipsle",
    "mips64", "mips64le", "mips64p32", "mips64p32le", "ppc", "ppc64", "ppc64le", "riscv",
    "riscv64", "s390", "s390x", "sparc", "sparc64", "wasm"]

/-- The newest minor version of the language. -/
def newestVersion : Nat := 26

/-- Whether a build tag holds. -/
def tagHolds (tag : String) : Bool :=
  ["linux", "amd64", "gc", "unix", "cgo", "amd64.v1"].contains tag ||
    (List.range newestVersion).any fun n => tag == s!"go1.{n + 1}"

/-- Whether a file name asks for this platform: its last parts between underscores can name a
system and a processor. -/
def nameMatches (name : String) : Bool :=
  let stem := Text.upTo '.' name
  match (Text.splitOn '_' stem).drop 1 with
  | [] => true
  | ps =>
    let ps := if ps.getLast? == some "test" then ps.dropLast else ps
    let last := ps.getLast?.getD ""
    let before := ps.dropLast.getLast?.getD ""
    if knownSystems.contains before && knownProcessors.contains last then
      tagHolds last && tagHolds before
    else if knownSystems.contains last || knownProcessors.contains last then tagHolds last
    else true

/-! ## conditions -/

/-- A condition on build tags. -/
inductive Condition where
  | tag (name : String)
  | not (x : Condition)
  | and (x y : Condition)
  | or (x y : Condition)
  deriving DecidableEq, Repr

namespace Condition

/-- Whether a condition holds. -/
def holds : Condition → Bool
  | tag name => tagHolds name
  | not x => !x.holds
  | and x y => x.holds && y.holds
  | or x y => x.holds || y.holds

/-- The greater of two versions, as far as they are known. -/
def laterVersion : Option Nat → Option Nat → Option Nat
  | some m, some n => some (max m n)
  | none, v | v, none => v

/-- The lesser of two versions, if both are known. -/
def earlierVersion : Option Nat → Option Nat → Option Nat
  | some m, some n => some (min m n)
  | _, _ => none

/-- The minor version of the language that a tag stands for. -/
def tagVersion (name : String) : Option Nat :=
  if name == "go1" then some 0
  else if Text.hasPrefix name "go1." then
    let digits := name.toList.drop 4
    if digits.isEmpty then none else Text.Integer.value? 10 0 digits
  else none

/-- The least version of the language with which a condition can hold, or with `negative` fail. -/
def version (negative : Bool) : Condition → Option Nat
  | tag name => if negative then none else tagVersion name
  | not x => x.version !negative
  | and x y =>
    (if negative then earlierVersion else laterVersion) (x.version negative) (y.version negative)
  | or x y =>
    (if negative then laterVersion else earlierVersion) (x.version negative) (y.version negative)

/-- The words of a condition, if it has no other characters. -/
def words? : Nat → List Char → Option (List String)
  | 0, _ => none
  | _ + 1, [] => some []
  | fuel + 1, '&' :: '&' :: rest => ("&&" :: ·) <$> words? fuel rest
  | fuel + 1, '|' :: '|' :: rest => ("||" :: ·) <$> words? fuel rest
  | fuel + 1, c :: rest =>
    let inTag (c : Char) := continuesName c || c == '.'
    if c == ' ' || c == '\t' then words? fuel rest
    else if c == '!' || c == '(' || c == ')' then (c.toString :: ·) <$> words? fuel rest
    else if inTag c then
      (String.ofList (c :: rest.takeWhile inTag) :: ·) <$> words? fuel (rest.dropWhile inTag)
    else none

/-- Whether a word is a tag. -/
def isTag (word : String) : Bool := !(["&&", "||", "!", "(", ")"].contains word)

/-- A condition at the front of some words, by descent: alternatives, then conjunctions, then
negations, brackets and tags.  `level` counts down from 2. -/
def read? : Nat → Nat → List String → Option (Condition × List String)
  | 0, _, _ => none
  | fuel + 1, 0, "!" :: rest =>
    if rest.head? == some "!" then none
    else (read? fuel 0 rest).map fun (x, r) => (not x, r)
  | fuel + 1, 0, "(" :: rest =>
    match read? fuel 2 rest with
    | some (x, ")" :: r) => some (x, r)
    | _ => none
  | _ + 1, 0, word :: rest => if isTag word then some (tag word, rest) else none
  | _ + 1, 0, [] => none
  | fuel + 1, level + 1, ws =>
    match read? fuel level ws with
    | some (x, op :: rest) =>
      if op == (if level == 0 then "&&" else "||") then
        (read? fuel (level + 1) rest).map fun (y, r) => (if level == 0 then and x y else or x y, r)
      else some (x, op :: rest)
    | r => r

/-- The condition that a text writes. -/
def parse? (text : String) : Option Condition := do
  let ws ← words? (text.length + 1) text.toList
  match read? (4 * ws.length + 8) 2 ws with
  | some (x, []) => some x
  | _ => none

/-- Whether what follows an older mark holds: blanks divide alternatives, commas what must hold
together. -/
def olderHolds (text : String) : Bool :=
  let blank (c : Char) : Bool := Text.isBlankChar c
  let options := (Text.splitOn ' ' (String.ofList
    (text.toList.map fun c => if blank c then ' ' else c))).filter (!·.isEmpty)
  let isProper (t : String) : Bool :=
    !t.isEmpty && t.toList.all fun c => continuesName c || c == '.'
  let literal (t : String) : Bool :=
    match t.toList with
    | '!' :: rest =>
      let name := String.ofList rest
      if rest.head? == some '!' || rest.isEmpty then false
      else !(isProper name && tagHolds name)
    | _ => isProper t && tagHolds t
  options.any fun o => (Text.splitOn ',' o).all literal

end Condition

/-! ## headers -/

/-- What stands at the top of a file. -/
structure Header where
  /-- Something other than line comments and blanks came already. -/
  ended : Bool
  /-- A comment is open that goes over several lines. -/
  inside : Bool
  /-- The lines up to the last blank line before that. -/
  closed : List String
  lines : List String
  /-- What follows the mark of a condition. -/
  conditions : List String

/-- What follows a mark at the front of a line, if it stands alone or before a blank. -/
def afterMark? (mark line : String) : Option String :=
  if Text.hasPrefix line mark then
    let rest := line.toList.drop mark.length
    if rest.head?.all Text.isBlankChar then some (Text.trim (String.ofList rest)) else none
  else none

/-- Whether a comment is open after a line; none if something else stands there. -/
def openAfter : Nat → Bool → List Char → Option Bool
  | 0, inside, _ => some inside
  | fuel + 1, inside, line =>
    match inside, line.dropWhile Text.isBlankChar with
    | inside, [] => some inside
    | false, '/' :: '/' :: _ => some false
    | false, '/' :: '*' :: rest => openAfter fuel true rest
    | false, _ => none
    | true, cs =>
      if Text.containsChars ['*', '/'] cs then openAfter fuel false (throughStarSlash cs).2
      else some true

/-- Reads lines until something other than a comment comes. -/
def Header.read (h : Header) : List String → Header
  | [] => h
  | l :: ls =>
    let line := Text.trim l
    if line.isEmpty && !h.ended then
      { h with closed := h.lines, lines := h.lines }.read ls
    else
      let h := { h with
        ended := h.ended || !Text.hasPrefix line "//"
        lines := h.lines ++ [line]
        conditions := h.conditions ++
          (if h.inside then [] else (afterMark? "//go:build" line).toList) }
      match openAfter (line.length + 1) h.inside line.toList with
      | some inside => { h with inside }.read ls
      | none => h

/-- The top of a source file. -/
def Header.ofSource (source : String) : Header :=
  let text := String.ofList (withoutByteOrderMark source.toList)
  Header.read ⟨false, false, [], [], []⟩ (Text.splitOn '\n' text)

/-- Whether the comments at the top of a file let it take part.  More than one condition is none. -/
def Header.holds (h : Header) : Bool :=
  match h.conditions with
  | [] =>
    h.closed.all fun l =>
      match afterMark? "+build" (Text.trim (String.ofList (l.toList.drop 2))) with
      | some c => Condition.olderHolds c
      | none => true
  | [c] => (Condition.parse? c).any Condition.holds
  | _ => false

/-- The version of the language that the condition at the top of a file asks for. -/
def Header.version (h : Header) : Option Nat :=
  (h.conditions.head?.bind Condition.parse?).bind (·.version false)

end Ripple.Go
