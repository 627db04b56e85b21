import Ripple.Source.Token

/-!
# Ripple.Java.Token

The tokens of Java source code.  `>` is always a token of its own, so that nested type arguments
close one at a time; a shift is two or three of them side by side.
-/

namespace Ripple.Java

open Source

/-- Words that cannot be names. -/
def keywords : List String :=
  ["abstract", "assert", "boolean", "break", "byte", "case", "catch", "char", "class", "const",
    "continue", "default", "do", "double", "else", "enum", "extends", "final", "finally", "float",
    "for", "goto", "if", "implements", "import", "instanceof", "int", "interface", "long", "native",
    "new", "package", "private", "protected", "public", "return", "short", "static", "strictfp",
    "super", "switch", "synchronized", "this", "throw", "throws", "transient", "try", "void",
    "volatile", "while", "true", "false", "null"]

/-- Operators of more than one character, longer ones first. -/
def marks : List String :=
  ["...", "<<=", "->", "::", "++", "--", "&&", "||", "==", "!=", "<=", "+=", "-=", "*=", "/=", "&=",
    "|=", "^=", "%=", "<<"]

/-- Splits after the first `"""` that no backslash escapes, or at the end. -/
def throughTextBlock : List Char → List Char × List Char
  | [] => ([], [])
  | '\\' :: c :: rest => let (a, b) := throughTextBlock rest; ('\\' :: c :: a, b)
  | '"' :: '"' :: '"' :: rest => (['"', '"', '"'], rest)
  | c :: rest => let (a, b) := throughTextBlock rest; (c :: a, b)

/-- The characters of a number, after its first; `hex` numbers have their exponent after `p`. -/
def numberTail (hex : Bool) : List Char → List Char × List Char
  | [] => ([], [])
  | [c] => if continuesName c || c == '.' then ([c], []) else ([], [c])
  | c :: d :: rest =>
    let exponent := if hex then c == 'p' || c == 'P' else c == 'e' || c == 'E'
    if exponent && (d == '+' || d == '-') then
      let (a, b) := numberTail hex rest
      (c :: d :: a, b)
    else if continuesName c || c == '.' then
      let (a, b) := numberTail hex (d :: rest)
      (c :: a, b)
    else ([], c :: d :: rest)

/-- Whether a character can start a Java name. -/
def startsJavaName (c : Char) : Bool := startsName c || c == '$'

/-- Whether a character can stand inside a Java name. -/
def continuesJavaName (c : Char) : Bool := continuesName c || c == '$'

/-- The blank or comment at the front, with the rest. -/
def gap? : List Char → Option (List Char × List Char)
  | '/' :: '/' :: rest =>
    some ('/' :: '/' :: rest.takeWhile (· != '\n'), rest.dropWhile (· != '\n'))
  | '/' :: '*' :: rest =>
    let (a, b) := throughStarSlash rest
    some ('/' :: '*' :: a, b)
  | c :: rest => if c.isWhitespace || c == '\x0c' then some ([c], rest) else none
  | [] => none

/-- The token at the front, with the rest. -/
def lexeme : List Char → Option (TokenKind × List Char × List Char)
  | [] => none
  | '"' :: '"' :: '"' :: rest =>
    let (a, b) := throughTextBlock rest
    some (.text, '"' :: '"' :: '"' :: a, b)
  | '"' :: rest => let (a, b) := throughQuote '"' rest; some (.text, '"' :: a, b)
  | '\'' :: rest => let (a, b) := throughQuote '\'' rest; some (.character, '\'' :: a, b)
  | c :: rest =>
    if startsJavaName c then
      some (.word, c :: rest.takeWhile continuesJavaName, rest.dropWhile continuesJavaName)
    else if c.isDigit || (c == '.' && rest.head?.any Char.isDigit) then
      let hex := c == '0' && rest.head?.any (fun x => x == 'x' || x == 'X')
      let (a, b) := numberTail hex rest
      some (.number, c :: a, b)
    else
      match frontMark? marks (c :: rest) with
      | some m => some (.mark, m.toList, (c :: rest).drop m.length)
      | none => some (.mark, [c], rest)

/-- The tokens of a source; `gap` is what stands before the next one, the latest first.  Each step
takes a character at least. -/
def tokensFrom : Nat → Nat → Nat → List Char → List Char → List Token
  | 0, _, _, _, _ => []
  | fuel + 1, line, index, gap, cs =>
    match gap? cs with
    | some (g, rest) => tokensFrom fuel (line + newlines g) index (g.reverse ++ gap) rest
    | none =>
      match lexeme cs with
      | none => []
      | some (kind, text, rest) =>
        ⟨kind, String.ofList text, String.ofList gap.reverse, line, index⟩ ::
          tokensFrom fuel (line + newlines text) (index + 1) [] rest

/-- The tokens of a Java source; a byte order mark in front is none. -/
def tokenize (source : String) : List Token :=
  let cs := withoutByteOrderMark source.toList
  tokensFrom (cs.length + 1) 1 0 [] cs

end Ripple.Java
