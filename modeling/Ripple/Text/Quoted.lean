import Ripple.Text.Hexadecimal
import Ripple.Text.Printable
import Ripple.Text.Raw

/-!
# Ripple.Text.Quoted

Texts in double quotes, as messages show them.  A quote and a backslash are escaped, seven controls
have a letter, other ASCII controls and stray bytes are written `\\x1b`, and what is not printable
beyond ASCII is written with four or eight hexadecimal digits.
-/

namespace Ripple

namespace Text

/-- How one character is written between quotes. -/
def quoteChar (c : Char) : List Char :=
  match c with
  | '"' => ['\\', '"']
  | '\\' => ['\\', '\\']
  | '\x07' => ['\\', 'a']
  | '\x08' => ['\\', 'b']
  | '\x0c' => ['\\', 'f']
  | '\n' => ['\\', 'n']
  | '\r' => ['\\', 'r']
  | '\t' => ['\\', 't']
  | '\x0b' => ['\\', 'v']
  | c =>
    let n := c.toNat
    if isPrintable c then [c]
    else if n < 0x80 then '\\' :: 'x' :: hex 2 n
    else if n < 0x10000 then '\\' :: 'u' :: hex 4 n
    else '\\' :: 'U' :: hex 8 n

/-- The text in double quotes. -/
def quote (s : String) : String :=
  String.ofList ('"' :: (s.toList.flatMap quoteChar ++ ['"']))

/-- The character in single quotes. -/
def quoteLetter (c : Char) : String :=
  let inner := if c = '\x27' then ['\\', c] else if c = '"' then [c] else quoteChar c
  String.ofList ('\x27' :: (inner ++ ['\x27']))

/-- Bytes in double quotes; what is not printable ASCII is written in hexadecimal. -/
def quoteBytes (bs : List UInt8) : String :=
  let one (b : UInt8) : List Char :=
    if b < 0x20 || b ≥ 0x80 then '\\' :: 'x' :: hex 2 b.toNat
    else
      let c := Char.ofNat b.toNat
      if c == '"' || c == '\\' then ['\\', c] else [c]
  String.ofList ('"' :: (bs.flatMap one ++ ['"']))

end Text

namespace RawText

/-- How one piece is written between quotes. -/
def Piece.quoted : Piece → List Char
  | char c => Text.quoteChar c
  | stray b => '\\' :: 'x' :: Text.hex 2 b.toNat

/-- The raw text in double quotes. -/
def quote (r : RawText) : String :=
  String.ofList ('"' :: (r.pieces.flatMap Piece.quoted ++ ['"']))

end RawText

end Ripple
