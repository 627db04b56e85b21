import Ripple.Text.Quoted

/-!
# Ripple.Json.Basic

JSON values and how they are written.  Object members keep their order.  A number is its literal.

`Json.compact` writes on one line, `Json.pretty` with an indentation of two blanks.  Both write
`<`, `>`, `&`, U+2028 and U+2029 as escapes, so that the text can stand inside a web page.
-/

namespace Ripple

/-- A JSON value. -/
inductive Json where
  | null
  | bool (b : Bool)
  | number (literal : String)
  | string (s : String)
  | array (items : List Json)
  | object (members : List (String × Json))
  deriving Repr

namespace Json

/-- An integer as a JSON number. -/
def int (n : Int) : Json := .number (toString n)

/-- A member with a text, which is left out when the text is empty. -/
def nonempty (name text : String) : List (String × Json) :=
  if text = "" then [] else [(name, .string text)]

/-- Which characters of a string are escaped beyond those that have to be. -/
structure Escapes where
  /-- `<`, `>` and `&` are escaped. -/
  markup : Bool
  /-- Backspace and form feed have a letter of their own. -/
  letters : Bool

/-- The way all JSON documents of this library are written. -/
def Escapes.document : Escapes := ⟨true, true⟩

/-- How one character is written inside a JSON string. -/
def escapeChar (esc : Escapes) (c : Char) : List Char :=
  let n := c.toNat
  if c == '"' then ['\\', '"']
  else if c == '\\' then ['\\', '\\']
  else if c == '\n' then ['\\', 'n']
  else if c == '\r' then ['\\', 'r']
  else if c == '\t' then ['\\', 't']
  else if n == 8 && esc.letters then ['\\', 'b']
  else if n == 12 && esc.letters then ['\\', 'f']
  else if n < 0x20 || n == 0x2028 || n == 0x2029 then '\\' :: 'u' :: Text.hex 4 n
  else if esc.markup && (c == '<' || c == '>' || c == '&') then '\\' :: 'u' :: Text.hex 4 n
  else [c]

/-- A text as a JSON string. -/
def quoteWith (esc : Escapes) (s : String) : String :=
  String.ofList ('"' :: (s.toList.flatMap (escapeChar esc) ++ ['"']))

/-- A text as a JSON string of a document. -/
def quote (s : String) : String := quoteWith .document s

/-! ## one line -/

mutual

/-- The value on one line. -/
def compact : Json → String
  | null => "null"
  | bool b => if b then "true" else "false"
  | number literal => literal
  | string s => quote s
  | array items => "[" ++ compactItems items ++ "]"
  | object members => "\x7b" ++ compactMembers members ++ "\x7d"

/-- Values with commas between them. -/
def compactItems : List Json → String
  | [] => ""
  | [v] => compact v
  | v :: w :: rest => compact v ++ "," ++ compactItems (w :: rest)

/-- Members with commas between them. -/
def compactMembers : List (String × Json) → String
  | [] => ""
  | [(k, v)] => quote k ++ ":" ++ compact v
  | (k, v) :: m :: rest => quote k ++ ":" ++ compact v ++ "," ++ compactMembers (m :: rest)

end

/-! ## indented -/

/-- The start of a line at a depth. -/
def newline (depth : Nat) : String :=
  "\n" ++ String.ofList (List.replicate (2 * depth) ' ')

mutual

/-- The value with its parts on lines of their own; empty arrays and objects stay on one line. -/
def prettyAt (depth : Nat) : Json → String
  | null => "null"
  | bool b => if b then "true" else "false"
  | number literal => literal
  | string s => quote s
  | array [] => "[]"
  | array (v :: vs) => "[" ++ prettyItems (depth + 1) (v :: vs) ++ newline depth ++ "]"
  | object [] => "\x7b\x7d"
  | object (m :: ms) =>
    "\x7b" ++ prettyMembers (depth + 1) (m :: ms) ++ newline depth ++ "\x7d"

/-- Values on lines of their own. -/
def prettyItems (depth : Nat) : List Json → String
  | [] => ""
  | [v] => newline depth ++ prettyAt depth v
  | v :: w :: rest => newline depth ++ prettyAt depth v ++ "," ++ prettyItems depth (w :: rest)

/-- Members on lines of their own. -/
def prettyMembers (depth : Nat) : List (String × Json) → String
  | [] => ""
  | [(k, v)] => newline depth ++ quote k ++ ": " ++ prettyAt depth v
  | (k, v) :: m :: rest =>
    newline depth ++ quote k ++ ": " ++ prettyAt depth v ++ "," ++ prettyMembers depth (m :: rest)

end

/-- The value on indented lines. -/
def pretty (v : Json) : String := prettyAt 0 v

end Json

end Ripple
