import Ripple.Go.Primitive
import Ripple.Go.Tree
import Ripple.Text.Integer
import Ripple.Text.Raw

/-!
# Ripple.Go.Constant

The values of constants, which are exact: numbers are complex numbers with rational parts, and texts
are made of bytes.  A value whose computation went wrong is unknown, and so is what is computed from
it.
-/

namespace Ripple.Go

/-- The value of a constant. -/
inductive Constant where
  | unknown
  | truth (b : Bool)
  | text (bytes : List UInt8)
  | number (re im : Rat)
  deriving DecidableEq, Inhabited

namespace Constant

/-- A whole number. -/
def int (n : Int) : Constant := .number (.ofInt n) (.ofInt 0)

/-- A real number. -/
def real (r : Rat) : Constant := .number r (.ofInt 0)

/-- The value as a whole number, if it is one. -/
def int? : Constant → Option Int
  | .number re im => if im.num = 0 ∧ re.den = 1 then some re.num else none
  | _ => none

/-- The value as a real number, if it is one. -/
def real? : Constant → Option Rat
  | .number re im => if im.num = 0 then some re else none
  | _ => none

/-! ## literals -/

/-- The value of digits of a base, which may have underscores between them. -/
def digits? (base : Nat) (cs : List Char) : Option Nat := Text.Integer.value? base 0 cs

/-- The value of an integer literal. -/
def ofInteger (literal : String) : Constant :=
  match Text.Integer.natural? literal.toList with
  | some n => .int n
  | none => .unknown

/-- The exponents beyond this size are not computed with. -/
def largestExponent : Nat := 20000

/-- The number `m · base^k`. -/
def scaled? (m base : Nat) (k : Int) : Option Rat :=
  if k.natAbs > largestExponent then if m = 0 then some (.ofInt 0) else none
  else if 0 ≤ k then some (.ofInt (m * Nat.pow base k.toNat : Nat))
  else some (mkRat m (Nat.pow base (-k).toNat))

/-- The value of an exponent. -/
def exponent? : List Char → Option Int
  | '-' :: ds => (digits? 10 ds).map fun n => -(n : Int)
  | '+' :: ds => (digits? 10 ds).map fun n => (n : Int)
  | ds => (digits? 10 ds).map fun n => (n : Int)

/-- The value of a number with a point or an exponent; the digits have a base, and the exponent one
of its own, in which a digit of the fraction counts `width` times. -/
def fractional? (base power width : Nat) (mark : Char → Bool) (cs : List Char) : Option Rat := do
  let mantissa := cs.takeWhile fun c => !mark c
  let k ← match cs.dropWhile fun c => !mark c with
    | _ :: e => exponent? e
    | [] => some 0
  let whole := mantissa.takeWhile (· != '.')
  let fraction := ((mantissa.dropWhile (· != '.')).drop 1).filter (· != '_')
  let m ← digits? base (whole ++ fraction)
  scaled? m power (k - width * fraction.length)

/-- The value of a literal of a real number. -/
def rational? (literal : String) : Option Rat :=
  match literal.toList with
  | '0' :: x :: rest =>
    if x == 'x' || x == 'X' then fractional? 16 2 4 (fun c => c == 'p' || c == 'P') rest
    else if x == 'b' || x == 'B' then (digits? 2 rest).map fun n => .ofInt n
    else if x == 'o' || x == 'O' then (digits? 8 rest).map fun n => .ofInt n
    else fractional? 10 10 1 (fun c => c == 'e' || c == 'E') ('0' :: x :: rest)
  | cs => fractional? 10 10 1 (fun c => c == 'e' || c == 'E') cs

/-- The value of a literal of a real number. -/
def ofFloat (literal : String) : Constant :=
  match rational? literal with
  | some r => .real r
  | none => .unknown

/-- The value of a literal of an imaginary number, which ends in `i`. -/
def ofImaginary (literal : String) : Constant :=
  match rational? (String.ofList literal.toList.dropLast) with
  | some r => .number (.ofInt 0) r
  | none => .unknown

/-- The number that a letter after a backslash stands for. -/
def escaped? (c : Char) : Option Nat :=
  match c with
  | 'a' => some 7
  | 'b' => some 8
  | 'f' => some 12
  | 'n' => some 10
  | 'r' => some 13
  | 't' => some 9
  | 'v' => some 11
  | '\\' | '\'' | '"' => some c.toNat
  | _ => none

/-- The bytes of a character with a number. -/
def charBytes (n : Nat) : List UInt8 :=
  let c := if n < 0x110000 && !(0xd800 ≤ n && n < 0xe000) then Char.ofNat n else Text.replacement
  c.toString.toUTF8.toList

/-- A piece of a literal: the number it stands for, and whether that is a byte. -/
structure Piece where
  value : Nat
  byte : Bool
  deriving DecidableEq, Repr

/-- The bytes of a piece. -/
def Piece.bytes (p : Piece) : List UInt8 :=
  if p.byte then [p.value.toUInt8] else charBytes p.value

/-- The pieces of what stands between quotes; every step takes a character at least. -/
def pieces : Nat → List Char → List Piece
  | 0, _ => []
  | _, [] => []
  | fuel + 1, '\\' :: c :: rest =>
    let coded (base width : Nat) (cs : List Char) (byte : Bool) : List Piece :=
      ⟨(digits? base (cs.take width)).getD 0, byte⟩ :: pieces fuel (cs.drop width)
    if c == 'x' then coded 16 2 rest true
    else if c == 'u' then coded 16 4 rest false
    else if c == 'U' then coded 16 8 rest false
    else if c.isDigit then coded 8 3 (c :: rest) true
    else ⟨(escaped? c).getD c.toNat, false⟩ :: pieces fuel rest
  | fuel + 1, c :: rest => ⟨c.toNat, false⟩ :: pieces fuel rest

/-- The bytes of a literal of a text, in double quotes or between backquotes. -/
def textBytes (literal : String) : List UInt8 :=
  let inner := (literal.toList.drop 1).dropLast
  if literal.toList.head? == some '"' then (pieces inner.length inner).flatMap Piece.bytes
  else (String.ofList (inner.filter (· != '\r'))).toUTF8.toList

/-- The value of a literal of a character, which is a number. -/
def ofRune (literal : String) : Constant :=
  let inner := (literal.toList.drop 1).dropLast
  match pieces inner.length inner with
  | p :: _ => .int p.value
  | [] => .unknown

/-- The value of a literal. -/
def ofLiteral (kind : LiteralKind) (literal : String) : Constant :=
  match kind with
  | .int => ofInteger literal
  | .float => ofFloat literal
  | .imaginary => ofImaginary literal
  | .rune => ofRune literal
  | .string => .text (textBytes literal)

/-! ## arithmetic -/

/-- Bits that two whole numbers have in common, both without end to the left. -/
def intAnd (a b : Int) : Int :=
  match a, b with
  | .ofNat m, .ofNat n => .ofNat (m.land n)
  | .ofNat m, .negSucc n => .ofNat (m - m.land n)
  | .negSucc m, .ofNat n => .ofNat (n - n.land m)
  | .negSucc m, .negSucc n => .negSucc (m.lor n)

/-- Bits that one of two whole numbers has. -/
def intOr (a b : Int) : Int := Int.not (intAnd (Int.not a) (Int.not b))

/-- Bits that exactly one of two whole numbers has. -/
def intXor (a b : Int) : Int := intAnd (intOr a b) (Int.not (intAnd a b))

/-- An operator on whole numbers; division goes towards zero. -/
def intOperation (op : String) (a b : Int) : Option Int :=
  match op with
  | "+" => some (Int.add a b)
  | "-" => some (Int.sub a b)
  | "*" => some (Int.mul a b)
  | "/" => if b = 0 then none else some (Int.tdiv a b)
  | "%" => if b = 0 then none else some (Int.tmod a b)
  | "&" => some (intAnd a b)
  | "|" => some (intOr a b)
  | "^" => some (intXor a b)
  | "&^" => some (intAnd a (Int.not b))
  | _ => none

/-- An operator on complex numbers with parts `a + b·i` and `c + d·i`. -/
def complexOperation (op : String) (a b c d : Rat) : Constant :=
  match op with
  | "+" => .number (a.add c) (b.add d)
  | "-" => .number (a.sub c) (b.sub d)
  | "*" => .number ((a.mul c).sub (b.mul d)) ((b.mul c).add (a.mul d))
  | "/" =>
    let s := (c.mul c).add (d.mul d)
    if s.num = 0 then .unknown
    else .number (((a.mul c).add (b.mul d)).div s) (((b.mul c).sub (a.mul d)).div s)
  | _ => .unknown

/-- An operator between two constants; `whole` says whether a division drops the fraction. -/
def operation (whole : Bool) (op : String) : Constant → Constant → Constant
  | .truth a, .truth b =>
    match op with
    | "&&" => .truth (a && b)
    | "||" => .truth (a || b)
    | _ => .unknown
  | .text a, .text b => if op == "+" then .text (a ++ b) else .unknown
  | .number a b, .number c d =>
    let bitwise := ["%", "&", "|", "^", "&^"].contains op
    if bitwise || (whole && op == "/") then
      match int? (.number a b), int? (.number c d) with
      | some m, some n => ((intOperation op m n).map int).getD .unknown
      | _, _ => .unknown
    else complexOperation op a b c d
  | _, _ => .unknown

/-- Whether the first of two lists of bytes comes before the second. -/
def bytesBefore : List UInt8 → List UInt8 → Bool
  | _, [] => false
  | [], _ :: _ => true
  | a :: as, b :: bs => if a == b then bytesBefore as bs else a.toNat < b.toNat

/-- A comparison from what is smaller and what is equal. -/
def compared (op : String) (less equal : Bool) : Constant :=
  match op with
  | "==" => .truth equal
  | "!=" => .truth !equal
  | "<" => .truth less
  | "<=" => .truth (less || equal)
  | ">" => .truth !(less || equal)
  | ">=" => .truth !less
  | _ => .unknown

/-- A comparison of two constants. -/
def comparison (op : String) : Constant → Constant → Constant
  | .truth a, .truth b => compared op false (a == b)
  | .text a, .text b => compared op (bytesBefore a b) (a == b)
  | .number a b, .number c d => compared op (a.blt c) (a == c && b == d)
  | _, _ => .unknown

/-- A shift of a whole number. -/
def shift (op : String) (c : Constant) (count : Nat) : Constant :=
  match c.int? with
  | some n =>
    if op == "<<" then .int (Int.mul n (Int.ofNat (Nat.pow 2 count)))
    else .int (Int.shiftRight n count)
  | none => .unknown

/-- An operator in front of a constant; for a type without a sign, `bits` bits are kept of a
complement. -/
def negation (op : String) (bits : Option Nat) : Constant → Constant
  | .truth b => if op == "!" then .truth !b else .unknown
  | .number re im =>
    match op with
    | "+" => .number re im
    | "-" => .number re.neg im.neg
    | "^" =>
      match int? (.number re im), bits with
      | some n, some k => .int (Int.emod (Int.not n) (Int.ofNat (Nat.pow 2 k)))
      | some n, none => .int (Int.not n)
      | none, _ => .unknown
    | _ => .unknown
  | _ => .unknown

/-! ## types -/

/-- The nearest number with a significand of so many bits and an exponent of at least `least`, if it
is below `2^top`.  A tie goes to the even neighbour. -/
def rounded? (bits : Nat) (least top : Int) (r : Rat) : Option Rat :=
  if r.num = 0 then some r
  else
    let n := r.num.natAbs
    let high : Int := (n.log2 : Int) - r.den.log2
    let q := max (high - bits - 1) least
    -- One step of the grid at `q` may be too fine by two bits.
    let settle (q : Int) : Nat × Nat × Int :=
      if 0 ≤ q then (n, r.den * Nat.pow 2 q.toNat, q) else (n * Nat.pow 2 (-q).toNat, r.den, q)
    let (a, b, q) :=
      let (a, b, q) := settle q
      let excess := (a / b).log2 + 1 - bits
      if excess = 0 then (a, b, q) else settle (q + excess)
    let low := a / b
    let twice := 2 * (a % b)
    let m := if b < twice || (twice == b && low % 2 == 1) then low + 1 else low
    match scaled? m 2 q with
    | some v =>
      if v.blt (.ofInt (Nat.pow 2 top.toNat : Nat)) then some (if r.num < 0 then v.neg else v)
      else none
    | none => none

/-- The nearest number of a type of real numbers, if there is one. -/
def roundedTo? (p : Primitive) (r : Rat) : Option Rat :=
  match p with
  | .float32 | .complex64 => rounded? 24 (-149) 128 r
  | .float64 | .complex128 => rounded? 53 (-1074) 1024 r
  | _ => some r

/-- Whether a type of whole numbers has a number. -/
def inRange (p : Primitive) (n : Int) : Bool :=
  let bits := 8 * p.size
  if p.isUntyped then true
  else if p.isUnsigned then 0 ≤ n && n < (Nat.pow 2 bits : Nat)
  else -(Nat.pow 2 (bits - 1) : Nat) ≤ n && n < (Nat.pow 2 (bits - 1) : Nat)

/-- A constant as a value of a type, if the type has it. -/
def represented? (p : Primitive) (c : Constant) : Option Constant :=
  match c with
  | .unknown => some .unknown
  | .truth b => if p.isBoolean then some (.truth b) else none
  | .text bs => if p.isString then some (.text bs) else none
  | .number re im =>
    if p.isInteger then
      match int? (.number re im) with
      | some n => if inRange p n then some (.int n) else none
      | none => none
    else if p.isFloat then
      match real? (.number re im) with
      | some r => (roundedTo? p r).map real
      | none => none
    else if p.isComplex then
      match roundedTo? p re, roundedTo? p im with
      | some r, some i => some (.number r i)
      | _, _ => none
    else none

/-- The text of the character with a number, of which 32 bits count. -/
def charText (n : Int) : Constant :=
  if 0 ≤ n ∧ n < 0x10000000000000000 then .text (charBytes (n.toNat % 0x100000000))
  else .text (charBytes 0xfffd)

/-- The bits that an untyped whole number can have. -/
def largestBits : Nat := 512

/-- Whether an untyped whole number has become too large. -/
def overflows (c : Constant) : Bool :=
  match c.int? with
  | some n => n.natAbs ≥ Nat.pow 2 largestBits
  | none => false

end Constant

end Ripple.Go
