/-!
# Ripple.Settings.Yaml.Cursor

Places in the text of a YAML stream.  Nesting goes by columns, and a key has to stand on one line,
so a place knows its column and its line.
-/

namespace Ripple.Settings.Yaml

/-! ## characters -/

/-- Blanks within a line. -/
def isSpace (c : Char) : Bool := c == ' ' || c == '\t'

/-- The ends of lines: a line feed, the line separator and the paragraph separator. -/
def isBreak (c : Char) : Bool := c == '\n' || c.toNat == 0x2028 || c.toNat == 0x2029

/-- Whether a text starts with a blank or the end of a line, or is empty. -/
def atGap : List Char → Bool
  | [] => true
  | c :: _ => isSpace c || isBreak c

/-- Whether a character may stand in a stream at all. -/
def isAllowed (c : Char) : Bool :=
  let n := c.toNat
  n == 9 || n == 10 || n == 13 || (0x20 ≤ n && n ≤ 0x7e) || n == 0x85 ||
    (0xa0 ≤ n && n ≤ 0xfffd) || 0x10000 ≤ n

/-- The mark that can stand in front of a text to tell its encoding. -/
def isByteOrderMark (c : Char) : Bool := c.toNat == 0xfeff

/-- Writes every line end as a line feed, except the two separators. -/
def unifyBreaks : List Char → List Char
  | '\r' :: '\n' :: rest => '\n' :: unifyBreaks rest
  | c :: rest => (if c == '\r' || c.toNat == 0x85 then '\n' else c) :: unifyBreaks rest
  | [] => []

/-- The characters of the names of anchors and directives. -/
def isNameChar (c : Char) : Bool := c.isAlphanum || c == '_' || c == '-'

/-- The braces of a flow map. -/
def isBrace (c : Char) : Bool := c == '\x7b' || c == '\x7d'

/-- The characters that mean something at the start of a value. -/
def isIndicator (c : Char) : Bool := "-?:,[]#&*!|>'\"%@`".toList.contains c || isBrace c

/-- The characters that end a plain scalar inside a flow collection. -/
def endsFlow (c : Char) : Bool := c == ',' || c == '?' || c == '[' || c == ']' || isBrace c

/-- Whether a mark that divides documents stands at the front. -/
def isDocumentMark : List Char → Bool
  | '-' :: '-' :: '-' :: rest => atGap rest
  | '.' :: '.' :: '.' :: rest => atGap rest
  | _ => false

/-! ## places -/

/-- What is left of a text, and where its first character stands. -/
structure Cursor where
  rest : List Char
  /-- The number of characters before. -/
  index : Nat
  line : Nat
  column : Nat

namespace Cursor

/-- The start of a text. -/
def start (text : List Char) : Cursor := ⟨text, 0, 0, 0⟩

/-- Moves over one character. -/
def step (c : Cursor) : Cursor :=
  match c.rest with
  | [] => c
  | x :: rest =>
    if isBreak x then ⟨rest, c.index + 1, c.line + 1, 0⟩
    else ⟨rest, c.index + 1, c.line, c.column + 1⟩

/-- Moves over a number of characters. -/
def skip (c : Cursor) : Nat → Cursor
  | 0 => c
  | n + 1 => c.step.skip n

/-- Moves to where a given rest of the text starts. -/
def seek (c : Cursor) (rest : List Char) : Cursor := c.skip (c.rest.length - rest.length)

/-- Moves over the characters at the front that satisfy a condition. -/
def skipWhile (p : Char → Bool) (c : Cursor) : Cursor := c.seek (c.rest.dropWhile p)

/-- Whether a given character is the next. -/
def sees (c : Cursor) (x : Char) : Bool := c.rest.head? == some x

/-- Moves over the blanks, the comment and the end of a line; nothing else may stand there. -/
def endLine? (c : Cursor) : Option Cursor :=
  let c := c.skipWhile isSpace
  let c := if c.sees '#' then c.skipWhile (!isBreak ·) else c
  match c.rest with
  | [] => some c
  | x :: _ => if isBreak x then some c.step else none

end Cursor

end Ripple.Settings.Yaml
