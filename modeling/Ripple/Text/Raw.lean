/-!
# Ripple.Text.Raw

Texts as they come from outside: bytes, which need not be those of any characters.  They are read
from the front, character by character, and a byte that is part of no character is *stray*.  A raw
text without stray bytes is a text.
-/

namespace Ripple

namespace Text

/-- The bytes of a text. -/
def bytes (s : String) : List UInt8 := s.toUTF8.data.toList

/-- The character that stands for stray bytes where a text can hold characters only. -/
def replacement : Char := Char.ofNat 0xfffd

/-- The low six bits of a byte that continues a character. -/
def continuation? (b : UInt8) : Option Nat :=
  if 0x80 ≤ b && b < 0xc0 then some (b.toNat - 0x80) else none

/-- The character with a number that is at least `least`, unless there is none. -/
def charFrom? (least n : Nat) : Option Char :=
  if least ≤ n ∧ n < 0x110000 ∧ ¬(0xd800 ≤ n ∧ n < 0xe000) then some (Char.ofNat n) else none

/-- The character at the front of some bytes, with the number of its bytes. -/
def frontChar? : List UInt8 → Option (Char × Nat)
  | [] => none
  | a :: rest =>
    let n := a.toNat
    if n < 0x80 then some (Char.ofNat n, 1)
    else if n < 0xc0 then none
    else if n < 0xe0 then do
      let b ← rest[0]?.bind continuation?
      return (← charFrom? 0x80 ((n - 0xc0) * 64 + b), 2)
    else if n < 0xf0 then do
      let b ← rest[0]?.bind continuation?
      let c ← rest[1]?.bind continuation?
      return (← charFrom? 0x800 (((n - 0xe0) * 64 + b) * 64 + c), 3)
    else if n < 0xf8 then do
      let b ← rest[0]?.bind continuation?
      let c ← rest[1]?.bind continuation?
      let d ← rest[2]?.bind continuation?
      return (← charFrom? 0x10000 ((((n - 0xf0) * 64 + b) * 64 + c) * 64 + d), 4)
    else none

end Text

/-- A text as it comes from outside. -/
structure RawText where
  bytes : List UInt8
  deriving DecidableEq, Repr

namespace RawText

/-- The raw text with the bytes of a text. -/
def ofText (s : String) : RawText := ⟨Text.bytes s⟩

/-- A piece of a raw text. -/
inductive Piece where
  | char (c : Char)
  /-- A byte that is part of no character. -/
  | stray (b : UInt8)
  deriving DecidableEq, Repr

/-- The character that a piece is. -/
def Piece.char? : Piece → Option Char
  | char c => some c
  | stray _ => none

/-- The character that is shown for a piece. -/
def Piece.shown (p : Piece) : Char := p.char?.getD Text.replacement

/-- The pieces of some bytes; `skip` of them belong to the character before. -/
def piecesOf (skip : Nat) : List UInt8 → List Piece
  | [] => []
  | b :: rest =>
    match skip with
    | n + 1 => piecesOf n rest
    | 0 =>
      match Text.frontChar? (b :: rest) with
      | some (c, n) => .char c :: piecesOf (n - 1) rest
      | none => .stray b :: piecesOf 0 rest

/-- The pieces of a raw text. -/
def pieces (r : RawText) : List Piece := piecesOf 0 r.bytes

/-- The text that a raw text is, unless it has stray bytes. -/
def text? (r : RawText) : Option String := (r.pieces.mapM Piece.char?).map String.ofList

/-- The text with a replacement for each stray byte. -/
def shown (r : RawText) : String := String.ofList (r.pieces.map Piece.shown)

end RawText

end Ripple
