import Ripple.Decimal.Shortest
import Ripple.Text.Integer
import Ripple.Word

/-!
# Ripple.Decimal.Reader

Reading of literals such as `-12.5e3`, and of hexadecimal ones such as `0x1.8p3`.  The value is the
nearest binary number; one that is too large is infinite, and one that is too small is zero.
-/

namespace Ripple.Decimal

/-- The nearest number to `m · 10^k`. -/
def ofScientific (m : Nat) (k : Int) : Float :=
  let top := k + digitCount m
  if m = 0 ∨ top < -400 then 0
  else if top > 400 then 1 / 0
  else if 0 ≤ k then Float.ofScientific m false k.toNat
  else Float.ofScientific m true (-k).toNat

/-- A sign at the front, with whether it is a minus. -/
def sign : List Char → Bool × List Char
  | '-' :: rest => (true, rest)
  | '+' :: rest => (false, rest)
  | cs => (false, cs)

/-- The value of some digits. -/
def digitsValue (ds : List Char) : Nat := ds.foldl (fun n d => n * 10 + (d.toNat - 48)) 0

/-- The exponent after the digits, which may be missing. -/
def exponent? : List Char → Option Int
  | [] => some 0
  | e :: rest =>
    if e == 'e' || e == 'E' then
      let (negative, ds) := sign rest
      if ds.isEmpty || !ds.all Char.isDigit then none
      else some (if negative then -(digitsValue ds : Int) else digitsValue ds)
    else none

/-- The value of a decimal literal: digits, a point with or without digits after it, an exponent.
There is at least one digit before the exponent. -/
def parse? (s : String) : Option Float := do
  let (negative, cs) := sign s.toList
  let whole := cs.takeWhile Char.isDigit
  let (fraction, rest) := match cs.dropWhile Char.isDigit with
    | '.' :: r => (r.takeWhile Char.isDigit, r.dropWhile Char.isDigit)
    | r => ([], r)
  if whole.isEmpty && fraction.isEmpty then none
  let k ← exponent? rest
  let x := ofScientific (digitsValue (whole ++ fraction)) (k - fraction.length)
  return if negative then -x else x

/-! ## hexadecimal literals -/

/-- The nearest number to `m · 2^e`.  A tie goes to the even neighbour. -/
def ofBinary (m : Nat) (e : Int) : Float :=
  if m = 0 then 0
  else
    let top := e + (m.log2 + 1 : Nat)
    if top > 1100 then 1 / 0
    else if top < -1100 then 0
    else
      let q := max (top - 53) (-1074)
      if q ≤ e then (Float.ofNat (m * Nat.pow 2 (e - q).toNat)).scaleB q
      else
        let d := Nat.pow 2 (q - e).toNat
        let low := m / d
        let twice := 2 * (m % d)
        let up := d < twice || (twice == d && low % 2 == 1)
        (Float.ofNat (if up then low + 1 else low)).scaleB q

/-- Whether a character is a hexadecimal digit. -/
def isHexDigit (c : Char) : Bool := (Text.Integer.digit? c).any (· < 16)

/-- The value of some hexadecimal digits. -/
def hexValue (ds : List Char) : Nat :=
  ds.foldl (fun n d => n * 16 + (Text.Integer.digit? d).getD 0) 0

/-- The value of a hexadecimal literal after its sign and `0x`: digits with or without a point, and
an exponent of two. -/
def hexadecimal? (cs : List Char) : Option Float := do
  let whole := cs.takeWhile isHexDigit
  let (fraction, rest) := match cs.dropWhile isHexDigit with
    | '.' :: r => (r.takeWhile isHexDigit, r.dropWhile isHexDigit)
    | r => ([], r)
  if whole.isEmpty && fraction.isEmpty then none
  match rest with
  | p :: rest =>
    if p != 'p' && p != 'P' then none
    let k ← exponent? ('e' :: rest)
    return ofBinary (hexValue (whole ++ fraction)) (k - 4 * fraction.length)
  | [] => none

/-- Whether underscores stand only between digits. -/
def underscoresFit (digit : Char → Bool) (afterDigit : Bool) : List Char → Bool
  | [] => true
  | '_' :: d :: rest => afterDigit && digit d && underscoresFit digit true rest
  | '_' :: _ => false
  | c :: rest => underscoresFit digit (digit c) rest

/-- The value of a literal without its underscores, which may stand between digits, and in a
hexadecimal literal after `0x` too. -/
def literal? (s : String) : Option Float := do
  let (negative, cs) := sign s.toList
  let bare := (· != '_')
  match cs with
  | '0' :: x :: rest =>
    if x == 'x' || x == 'X' then
      if !underscoresFit isHexDigit true rest then none
      let v ← hexadecimal? (rest.filter bare)
      return if negative then -v else v
  | _ => pure ()
  if underscoresFit Char.isDigit false cs then parse? (String.ofList (s.toList.filter bare))
  else none

/-! ## texts -/

/-- The value of a text with an endless or undefined value, which is written as a word. -/
def word? (s : String) : Option Float :=
  let lower := s.map Char.toLower
  if ["inf", "+inf", "infinity", "+infinity"].contains lower then some (1 / 0)
  else if ["-inf", "-infinity"].contains lower then some (-1 / 0)
  else if lower = "nan" then some (0 / 0)
  else none

/-- The number that a text stands for: a word, or a literal that is not too large. -/
def read (s : String) : Except Text.NumberProblem Float :=
  match word? s with
  | some x => .ok x
  | none =>
    match literal? s with
    | none => .error .malformed
    | some x => if x.isInf then .error .tooLarge else .ok x

/-- The whole number towards zero, within 64 bits; what does not fit becomes the smallest. -/
def truncate (x : Float) : Int :=
  if x.isNaN then -Word.half
  else if x.isInf then -Word.half
  else
    let b := Binary.ofFloat x
    let size : Nat := if 0 ≤ b.q then b.m * Nat.pow 2 b.q.toNat else b.m / Nat.pow 2 (-b.q).toNat
    let n : Int := if b.negative then -size else size
    if -Word.half ≤ n ∧ n < Word.half then n else -Word.half

/-- A number in positional notation, with the fewest digits that read back. -/
def plain (x : Float) : String :=
  if x.isNaN then "NaN"
  else
    let b := Binary.ofFloat x
    if x.isInf then if b.negative then "-Inf" else "+Inf"
    else
      (if b.negative then "-" else "") ++
        if b.m = 0 then "0" else positional ((shortest b.m b.q).trim 400)

/-- A number with one digit after the point.  A tie goes to the even digit. -/
def tenths (x : Float) : String :=
  if x.isNaN then "NaN"
  else
    let b := Binary.ofFloat x
    if x.isInf then if b.negative then "-Inf" else "+Inf"
    else
      let r := Ratio.scale (b.m * 10) 2 b.q
      let low := r.num / r.den
      let twice := 2 * (r.num % r.den)
      let up := r.den < twice || (twice == r.den && low % 2 == 1)
      let n := if up then low + 1 else low
      (if b.negative then "-" else "") ++ toString (n / 10) ++ "." ++ toString (n % 10)

end Ripple.Decimal
