import Ripple.Go.Directive
import Ripple.Source.Token

/-!
# Ripple.Go.Token

The tokens of Go source code.  A line break after a token that can end a statement is a semicolon.
-/

namespace Ripple.Go

open Source

/-- Words that cannot be names. -/
def keywords : List String :=
  ["break", "case", "chan", "const", "continue", "default", "defer", "else", "fallthrough", "for",
    "func", "go", "goto", "if", "import", "interface", "map", "package", "range", "return",
    "select", "struct", "switch", "type", "var"]

/-- Operators of more than one character, longer ones first. -/
def marks : List String :=
  ["<<=", ">>=", "&^=", "...", "&&", "||", "<-", "++", "--", "==", "!=", "<=", ">=", ":=", "+=",
    "-=", "*=", "/=", "%=", "&=", "|=", "^=", "<<", ">>", "&^"]

/-- Whether a line break after a token ends a statement. -/
def endsStatement (t : Token) : Bool :=
  match t.kind with
  | .number | .text | .character => true
  | .word =>
    !keywords.contains t.text ||
      ["break", "continue", "fallthrough", "return"].contains t.text
  | .mark => ["++", "--", ")", "]", rightBrace].contains t.text

/-- The characters of a number, after its first. -/
def numberTail (hex : Bool) : List Char → List Char × List Char
  | [] => ([], [])
  | [c] => if continuesName c || c == '.' then ([c], []) else ([], [c])
  | c :: d :: rest =>
    let exponent := if hex then c == 'p' || c == 'P' else c == 'e' || c == 'E'
    if exponent && (d == '+' || d == '-') then
      let (a, b) := numberTail hex rest
      (c :: d :: a, b)
    else if continuesName c || c == '.' then
      let (a, b) := numberTail hex (d :: rest)
      (c :: a, b)
    else ([], c :: d :: rest)

/-- The blank or comment at the front, with the rest. -/
def gap? : List Char → Option (List Char × List Char)
  | '/' :: '/' :: rest =>
    some ('/' :: '/' :: rest.takeWhile (· != '\n'), rest.dropWhile (· != '\n'))
  | '/' :: '*' :: rest =>
    let (a, b) := throughStarSlash rest
    some ('/' :: '*' :: a, b)
  | c :: rest => if c == ' ' || c == '\t' || c == '\r' || c == '\n' then some ([c], rest) else none
  | [] => none

/-- The token at the front, with the rest. -/
def lexeme : List Char → Option (TokenKind × List Char × List Char)
  | [] => none
  | '"' :: rest => let (a, b) := throughQuote '"' rest; some (.text, '"' :: a, b)
  | '\x60' :: rest =>
    some (.text, '\x60' :: rest.takeWhile (· != '\x60') ++ ['\x60'],
      (rest.dropWhile (· != '\x60')).drop 1)
  | '\'' :: rest => let (a, b) := throughQuote '\'' rest; some (.character, '\'' :: a, b)
  | c :: rest =>
    if startsName c then
      some (.word, c :: rest.takeWhile continuesName, rest.dropWhile continuesName)
    else if c.isDigit || (c == '.' && rest.head?.any Char.isDigit) then
      let hex := c == '0' && rest.head?.any (fun x => x == 'x' || x == 'X')
      let (a, b) := numberTail hex rest
      some (.number, c :: a, b)
    else
      match frontMark? marks (c :: rest) with
      | some m => some (.mark, m.toList, (c :: rest).drop m.length)
      | none => some (.mark, [c], rest)

/-- The tokens of a source; `gap` is what stands before the next one, the latest first, and `open_`
says whether a line break would be a semicolon.  Each step takes a character at least, or closes a
statement. -/
def tokensFrom : Nat → Place → Nat → Bool → List Char → List Char → List Token
  | 0, _, _, _, _, _ => []
  | fuel + 1, place, index, open_, gap, cs =>
    let line := place.reported
    let semicolon : Token := ⟨.mark, ";", String.ofList gap.reverse, line, index⟩
    match gap? cs with
    | some (g, rest) =>
      if open_ && g.contains '\n' then
        semicolon :: tokensFrom fuel (place.passGap g) (index + 1) false g.reverse rest
      else tokensFrom fuel (place.passGap g) index open_ (g.reverse ++ gap) rest
    | none =>
      match lexeme cs with
      | none => if open_ then [semicolon] else []
      | some (kind, text, rest) =>
        let t : Token := ⟨kind, String.ofList text, String.ofList gap.reverse, line, index⟩
        t :: tokensFrom fuel (place.pass text) (index + 1) (endsStatement t) [] rest

/-- Whether a byte order mark stands in front of a source. -/
def isMarked (source : String) : Bool := source.toList.head? == some '\uFEFF'

/-- The tokens of a Go source; a byte order mark in front is none. -/
def tokenize (source : String) : List Token :=
  let cs := withoutByteOrderMark source.toList
  tokensFrom (cs.length + 1) (.start (isMarked source)) 0 false [] cs

/-- The file under which the code after some blanks and comments is reported. -/
def fileAfter (path : String) : Nat → Place → String → List Char → String
  | 0, _, file, _ => file
  | fuel + 1, place, file, cs =>
    match gap? cs with
    | some (g, rest) =>
      let file := match place.directive? g with
        | some d => d.target path file
        | none => file
      fileAfter path fuel (place.passGap g) file rest
    | none => file

/-- The file under which the first token of a source at a path is reported. -/
def firstFile (path source : String) : String :=
  let cs := withoutByteOrderMark source.toList
  fileAfter path (cs.length + 1) (.start (isMarked source)) path cs

end Ripple.Go
