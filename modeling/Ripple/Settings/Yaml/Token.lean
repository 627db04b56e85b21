import Ripple.Settings.Yaml.Scalar

/-!
# Ripple.Settings.Yaml.Token

The tokens of a YAML stream.

Nesting of block collections is told by columns: `Scanner.indent` is the column of the innermost
one, and a token at a lesser column closes it.  Whether a token is a key is known only at the colon
after it, so the place of a possible key is remembered, and the tokens that open the map and the key
are put in front of it later.  A key without a question mark stands on one line and has at most 1024
characters.

Tokens are read on demand, and always two beyond the one that is asked for.  What is malformed
further down does no harm.
-/

namespace Ripple.Settings.Yaml

/-- A token. -/
inductive Token where
  | streamEnd
  | version (major minor : Nat)
  | tagDirective (handle target : String)
  | documentStart
  | documentEnd
  | blockSequenceStart
  | blockMappingStart
  | blockEnd
  | flowSequenceStart
  | flowSequenceEnd
  | flowMappingStart
  | flowMappingEnd
  | blockEntry
  | flowEntry
  | key
  | value
  | reference (name : String)
  | anchor (name : String)
  /-- A tag in two parts; the handle is empty if the tag is written out. -/
  | tag (handle suffix : String)
  /-- A scalar; a plain one can stand for something else than its text. -/
  | scalar (text : String) (plain : Bool)
  deriving DecidableEq, Repr

/-- A place where a key may start. -/
structure PossibleKey where
  /-- It has to be a key, since a block map is open at its column. -/
  required : Bool
  /-- The number of the token that starts there. -/
  number : Nat
  index : Nat
  line : Nat
  column : Nat
  deriving DecidableEq, Repr

/-- The state of reading tokens. -/
structure Scanner where
  cursor : Cursor
  /-- The tokens that were read and not taken. -/
  queue : List Token := []
  /-- How many tokens were taken. -/
  taken : Nat := 0
  /-- The column of the innermost block collection; -1 outside all. -/
  indent : Int := -1
  /-- The columns of the block collections around it. -/
  indents : List Int := []
  /-- Whether a key may start here. -/
  keyAllowed : Bool := true
  /-- The possible keys of the block context and of the flow collections in it, the innermost
  first. -/
  keys : List (Option PossibleKey) := [none]

namespace Scanner

/-- Whether a flow collection is open. -/
def inFlow (s : Scanner) : Bool := 1 < s.keys.length

/-- Adds a token at the end. -/
def push (s : Scanner) (t : Token) : Scanner := { s with queue := s.queue ++ [t] }

/-- Adds a token and moves on. -/
def emit (s : Scanner) (t : Token) (cursor : Cursor) : Scanner := { s.push t with cursor }

/-- Puts a token in front of the one with a number. -/
def insertAt (s : Scanner) (number : Nat) (t : Token) : Scanner :=
  let n := number - s.taken
  { s with queue := s.queue.take n ++ t :: s.queue.drop n }

/-! ## indentation -/

/-- Closes the block collections at columns beyond a given one. -/
def unrollFrom (column : Int) : List Int → Scanner → Scanner
  | [], s => s
  | outer :: rest, s =>
    if column < s.indent then
      unrollFrom column rest { s.push .blockEnd with indent := outer, indents := rest }
    else s

/-- Closes the block collections at columns beyond a given one, outside flow collections. -/
def unroll (column : Int) (s : Scanner) : Scanner :=
  if s.inFlow then s else unrollFrom column s.indents s

/-- Opens a block collection at a column beyond that of the innermost one; its token stands in front
of the one with a number, or at the end. -/
def roll (column : Nat) (number : Option Nat) (t : Token) (s : Scanner) : Scanner :=
  if s.inFlow || (column : Int) ≤ s.indent then s
  else
    let s := { s with indents := s.indent :: s.indents, indent := column }
    match number with
    | some n => s.insertAt n t
    | none => s.push t

/-! ## possible keys -/

/-- The possible key of the innermost collection. -/
def key? (s : Scanner) : Option PossibleKey := s.keys.head?.bind id

/-- Sets the possible key of the innermost collection. -/
def setKey (k : Option PossibleKey) (s : Scanner) : Scanner := { s with keys := k :: s.keys.drop 1 }

/-- Gives up the possible key of the innermost collection, unless it has to be one. -/
def dropKey (s : Scanner) : Option Scanner :=
  match s.key? with
  | some k => if k.required then none else some (s.setKey none)
  | none => some s

/-- Notes that a key may start here, if one is allowed. -/
def saveKey (s : Scanner) : Option Scanner :=
  if s.keyAllowed then do
    let c := s.cursor
    let required := !s.inFlow && s.indent == (c.column : Int)
    let s ← s.dropKey
    return s.setKey (some ⟨required, s.taken + s.queue.length, c.index, c.line, c.column⟩)
  else some s

/-- Whether a possible key can still be one: its line has not ended, and it is not too long.
Nothing if it has to be one and cannot. -/
def keyHolds? (s : Scanner) (k : PossibleKey) : Option Bool :=
  if k.line < s.cursor.line || k.index + 1024 < s.cursor.index then
    if k.required then none else some false
  else some true

/-! ## blanks between tokens -/

/-- Passes over blanks, comments and line ends.  A tab is a blank inside a flow collection and where
no key may start.  Outside flow collections a key may start on a new line. -/
def passFrom : Nat → Scanner → Scanner
  | 0, s => s
  | fuel + 1, s =>
    let c := s.cursor
    let c := if c.column == 0 && c.rest.head?.any isByteOrderMark then c.step else c
    let tabs := s.inFlow || !s.keyAllowed
    let c := c.skipWhile fun x => x == ' ' || (x == '\t' && tabs)
    let c := if c.sees '#' then c.skipWhile (!isBreak ·) else c
    if c.rest.head?.any isBreak then
      passFrom fuel { s with cursor := c.step, keyAllowed := s.keyAllowed || !s.inFlow }
    else { s with cursor := c }

/-- Passes over blanks, comments and line ends. -/
def pass (s : Scanner) : Scanner := passFrom (s.cursor.rest.length + 1) s

/-! ## directives, anchors and tags -/

/-- A number of a version. -/
def versionNumber? (c : Cursor) : Option (Nat × Cursor) :=
  let ds := c.rest.takeWhile Char.isDigit
  if ds.isEmpty || 9 < ds.length then none
  else some (ds.foldl (fun n d => n * 10 + (d.toNat - 48)) 0, c.skip ds.length)

/-- The handle of a tag: an exclamation mark, and with a name after it another one. -/
def tagHandle? (directive : Bool) (c : Cursor) : Option (String × Cursor) :=
  match c.rest with
  | '!' :: rest =>
    let name := rest.takeWhile isNameChar
    let after := c.skip (1 + name.length)
    if after.sees '!' then some (String.ofList ('!' :: name ++ ['!']), after.step)
    else if directive && !name.isEmpty then none
    else some (String.ofList ('!' :: name), after)
  | _ => none

/-- The characters of a tag that are written as they are. -/
def isTagChar (c : Char) : Bool := isNameChar c || ";/?:@&=+$,.!~*'()[]".toList.contains c

/-- The bytes at the front that are written in hexadecimal after a percent sign. -/
def escapedBytes : List Char → Option (List UInt8)
  | '%' :: a :: b :: rest => do
    let byte := (16 * (← Text.hexValue? a) + (← Text.hexValue? b)).toUInt8
    return byte :: (← escapedBytes rest)
  | '%' :: _ => none
  | _ => some []

/-- The characters of a tag. -/
def tagChars : Nat → List Char → Option (List Char × List Char)
  | 0, _ => none
  | _ + 1, [] => some ([], [])
  | fuel + 1, c :: rest =>
    if c == '%' then do
      let bytes ← escapedBytes (c :: rest)
      let text ← String.fromUTF8? ⟨bytes.toArray⟩
      let (more, after) ← tagChars fuel ((c :: rest).drop (3 * bytes.length))
      return (text.toList ++ more, after)
    else if isTagChar c then do
      let (more, after) ← tagChars fuel rest
      return (c :: more, after)
    else some ([], c :: rest)

/-- The rest of a tag; it must not be empty unless something stands in front of it. -/
def tagUri? (c : Cursor) (mayBeEmpty : Bool) : Option (String × Cursor) := do
  let (text, rest) ← tagChars (c.rest.length + 1) c.rest
  if text.isEmpty && !mayBeEmpty then none else return (String.ofList text, c.seek rest)

/-- A directive after its percent sign. -/
def directive? (c : Cursor) : Option (Token × Cursor) := do
  let name := c.rest.takeWhile isNameChar
  let c := c.skip name.length
  if name.isEmpty || !atGap c.rest then none
  let c := c.skipWhile isSpace
  let (t, c) ← match String.ofList name with
    | "YAML" => do
      let (major, c) ← versionNumber? c
      if !c.sees '.' then none
      let (minor, c) ← versionNumber? c.step
      pure (.version major minor, c)
    | "TAG" => do
      let (handle, c) ← tagHandle? true c
      if !c.rest.head?.any isSpace then none
      let (target, c) ← tagUri? (c.skipWhile isSpace) false
      if !atGap c.rest then none
      pure (.tagDirective handle target, c)
    | _ => none
  return (t, ← c.endLine?)

/-- The name of an anchor. -/
def anchorName? (c : Cursor) : Option (String × Cursor) :=
  let name := c.rest.takeWhile isNameChar
  let c := c.skip name.length
  let closed := atGap c.rest ||
    c.rest.head?.any (fun x => "?:,]%@`".toList.contains x || x == '\x7d')
  if name.isEmpty || !closed then none else some (String.ofList name, c)

/-- A tag: written out between angle brackets, with a handle, or local. -/
def tag? (c : Cursor) : Option (Token × Cursor) := do
  let (t, c) ← match c.rest with
    | '!' :: '<' :: _ => do
      let (suffix, c) ← tagUri? (c.skip 2) false
      if c.sees '>' then some (Token.tag "" suffix, c.step) else none
    | _ => do
      let (handle, c) ← tagHandle? false c
      if handle.length > 1 && handle.endsWith "!" then
        let (suffix, c) ← tagUri? c false
        pure (Token.tag handle suffix, c)
      else
        let (suffix, c) ← tagUri? c true
        let suffix := String.ofList (handle.toList.drop 1) ++ suffix
        pure (if suffix.isEmpty then Token.tag "" "!" else Token.tag "!" suffix, c)
  if atGap c.rest then return (t, c) else none

/-! ## tokens -/

/-- The mark that opens or closes a document. -/
def documentMark (t : Token) (s : Scanner) : Option Scanner := do
  let s ← (s.unroll (-1)).dropKey
  return { s with keyAllowed := false }.emit t (s.cursor.skip 3)

/-- A directive. -/
def directive (s : Scanner) : Option Scanner := do
  let s ← (s.unroll (-1)).dropKey
  let (t, c) ← directive? s.cursor.step
  return { s with keyAllowed := false }.emit t c

/-- The end of the stream. -/
def finish (s : Scanner) : Option Scanner := do
  let c := s.cursor
  let s := if c.column == 0 then s else { s with cursor := ⟨c.rest, c.index, c.line + 1, 0⟩ }
  let s ← (s.unroll (-1)).dropKey
  return { s with keyAllowed := false }.push .streamEnd

/-- The start of a flow collection. -/
def openFlow (t : Token) (s : Scanner) : Option Scanner := do
  let s ← s.saveKey
  return { s with keys := none :: s.keys, keyAllowed := true }.emit t s.cursor.step

/-- The end of a flow collection. -/
def closeFlow (t : Token) (s : Scanner) : Option Scanner := do
  let s ← s.dropKey
  let keys := if s.inFlow then s.keys.drop 1 else s.keys
  return { s with keys, keyAllowed := false }.emit t s.cursor.step

/-- The comma of a flow collection. -/
def flowComma (s : Scanner) : Option Scanner := do
  let s ← s.dropKey
  return { s with keyAllowed := true }.emit .flowEntry s.cursor.step

/-- The dash of a list entry. -/
def dash (s : Scanner) : Option Scanner := do
  if !s.inFlow && !s.keyAllowed then none
  let s ← (s.roll s.cursor.column none .blockSequenceStart).dropKey
  return { s with keyAllowed := true }.emit .blockEntry s.cursor.step

/-- The question mark of a key. -/
def keyMark (s : Scanner) : Option Scanner := do
  if !s.inFlow && !s.keyAllowed then none
  let s ← (s.roll s.cursor.column none .blockMappingStart).dropKey
  return { s with keyAllowed := !s.inFlow }.emit .key s.cursor.step

/-- The colon of a value: what stands at the possible key is one, or the key was marked. -/
def colon (s : Scanner) : Option Scanner := do
  let found ← match s.key? with
    | some k => do pure (if ← s.keyHolds? k then some k else none)
    | none => pure none
  match found with
  | some k =>
    let s := (s.insertAt k.number .key).roll k.column (some k.number) .blockMappingStart
    return { s.setKey none with keyAllowed := false }.emit .value s.cursor.step
  | none =>
    if !s.inFlow && !s.keyAllowed then none
    let s := (s.roll s.cursor.column none .blockMappingStart).setKey none
    return { s with keyAllowed := !s.inFlow }.emit .value s.cursor.step

/-- A token that may be part of a key. -/
def partOfKey (read : Cursor → Option (Token × Cursor)) (s : Scanner) : Option Scanner := do
  let s ← s.saveKey
  let (t, c) ← read s.cursor
  return { s with keyAllowed := false }.emit t c

/-- A scalar in quotes. -/
def quoted? (c : Cursor) : Option (Token × Cursor) := do
  let (text, rest) ← match c.rest with
    | '\x27' :: rest => singleChars [] {} (c.column + 1) rest
    | '"' :: rest => doubleChars [] {} (c.column + 1) rest
    | _ => none
  return (.scalar (String.ofList text.reverse) false, c.seek rest)

/-- A plain scalar; after one whose last line has ended a key may start. -/
def plainScalar (s : Scanner) : Option Scanner := do
  let s ← s.saveKey
  let c := s.cursor
  let (text, ended, rest) ← plainChars s.inFlow (s.indent + 1).toNat [] {} c.column c.rest
  let token := .scalar (String.ofList text.reverse) true
  return { s with keyAllowed := ended }.emit token (c.seek rest)

/-- A block scalar. -/
def blockScalar (literal : Bool) (s : Scanner) : Option Scanner := do
  let s ← s.dropKey
  let (chomp, width, rest) ← blockHeader? (s.cursor.rest.drop 1)
  let c ← (s.cursor.seek rest).endLine?
  let (text, rest) ← blockChars literal chomp width s.indent c.rest
  let token := .scalar (String.ofList text.reverse) false
  return { s with keyAllowed := true }.emit token (c.seek rest)

/-- Reads the next token; with it tokens can come that open or close block collections. -/
def fetch (s : Scanner) : Option Scanner :=
  let s := s.pass
  let c := s.cursor
  let s := s.unroll c.column
  let flow := s.inFlow
  match c.rest with
  | [] => s.finish
  | x :: rest =>
    if c.column == 0 && x == '%' then s.directive
    else if c.column == 0 && isDocumentMark c.rest then
      s.documentMark (if x == '-' then .documentStart else .documentEnd)
    else if x == '[' then s.openFlow .flowSequenceStart
    else if x == '\x7b' then s.openFlow .flowMappingStart
    else if x == ']' then s.closeFlow .flowSequenceEnd
    else if x == '\x7d' then s.closeFlow .flowMappingEnd
    else if x == ',' then s.flowComma
    else if x == '-' && atGap rest then s.dash
    else if x == '?' && (flow || atGap rest) then s.keyMark
    else if x == ':' && (flow || atGap rest) then s.colon
    else if x == '*' then
      s.partOfKey fun c => (anchorName? c.step).map fun (n, c) => (.reference n, c)
    else if x == '&' then s.partOfKey fun c => (anchorName? c.step).map fun (n, c) => (.anchor n, c)
    else if x == '!' then s.partOfKey tag?
    else if x == '|' && !flow then s.blockScalar true
    else if x == '>' && !flow then s.blockScalar false
    else if x == '\x27' || x == '"' then s.partOfKey quoted?
    else if startsPlain flow c.rest then s.plainScalar
    else none

/-- Reads tokens until three are there and the first is known to be no key, or has its key in front
of it. -/
def fill : Nat → Scanner → Option Scanner
  | 0, _ => none
  | fuel + 1, s =>
    if s.queue.length < 3 then s.fetch.bind (fill fuel)
    else
      match s.keys.findIdx? (fun k => k.any (·.number == s.taken)) with
      | none => some s
      | some i => do
        let some k := (s.keys[i]?).bind id | some s
        if ← s.keyHolds? k then s.fetch.bind (fill fuel)
        else some { s with keys := s.keys.set i none }

end Scanner

end Ripple.Settings.Yaml
