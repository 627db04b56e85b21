import Ripple.Text.Quoted
import Ripple.Word

/-!
# Ripple.Decimal.Shortest

Binary floating-point numbers as decimals.  A finite number is `m · 2^q`; its decimal is the
shortest one that lies in the interval of reals that round to it, and of those the nearest.  The
ends of the interval belong to it exactly when `m` is even.

`literal` writes the decimal positionally from 10⁻⁶ up to, but not including, 10²¹, and with an
exponent beyond.
-/

namespace Ripple.Decimal

/-- A finite number `± m · 2^q`. -/
structure Binary where
  negative : Bool
  m : Nat
  q : Int
  deriving DecidableEq, Repr

/-- The leading bit of a significand of full length, which is `2^52`. -/
def hiddenBit : Nat := 0x10000000000000

/-- Sign, significand and exponent of a finite number. -/
def Binary.ofFloat (x : Float) : Binary :=
  let bits := x.toBits.toNat
  let exponent : Nat := bits / hiddenBit % 2048
  let fraction : Nat := bits % hiddenBit
  let negative := bits / Word.half == 1
  if exponent = 0 then ⟨negative, fraction, -1074⟩
  else ⟨negative, hiddenBit + fraction, (exponent : Int) - 1075⟩

/-- A positive rational number. -/
structure Ratio where
  num : Nat
  den : Nat

/-- `n · b^k` as a ratio. -/
def Ratio.scale (n b : Nat) (k : Int) : Ratio :=
  if 0 ≤ k then ⟨n * Nat.pow b k.toNat, 1⟩ else ⟨n, Nat.pow b (-k).toNat⟩

/-- Whether the first ratio is smaller. -/
def Ratio.lt (a b : Ratio) : Bool := a.num * b.den < b.num * a.den

/-- The number of decimal digits of a natural number. -/
def digitCount (n : Nat) : Nat := (Nat.toDigits 10 n).length

/-- The digits and the power of ten of a positive decimal. -/
structure Digits where
  digits : Nat
  exponent : Int
  deriving DecidableEq, Repr

/-- The ratio of a decimal. -/
def Digits.ratio (d : Digits) : Ratio := Ratio.scale d.digits 10 d.exponent

/-- The reals that round to a binary number, in units that make both ends whole: the ends are
`(4m − below) · 2^(q−2)` and `(4m + 2) · 2^(q−2)`. -/
def inInterval (m : Nat) (q : Int) (d : Ratio) : Bool :=
  let below := if m = hiddenBit ∧ q > -1074 then 1 else 2
  let low := Ratio.scale (4 * m - below) 2 (q - 2)
  let high := Ratio.scale (4 * m + 2) 2 (q - 2)
  if m % 2 = 0 then !d.lt low && !high.lt d else low.lt d && d.lt high

/-- The power of ten just above a positive ratio: `10^(k-1) ≤ r < 10^k`, found from an estimate
that is at most one too small. -/
def magnitude (r : Ratio) : Int :=
  let guess : Int := (digitCount r.num : Int) - digitCount r.den
  if r.lt (Ratio.scale 1 10 guess) then guess else guess + 1

/-- The best decimal with a given number of digits, if one reads back as the number. -/
def onGrid (m : Nat) (q : Int) (value : Ratio) (top : Int) (n : Nat) : Option Digits :=
  let exponent := top - n
  let unit := Ratio.scale 1 10 exponent
  let floor := value.num * unit.den / (value.den * unit.num)
  let below : Digits := ⟨floor, exponent⟩
  let above : Digits := ⟨floor + 1, exponent⟩
  match inInterval m q below.ratio, inInterval m q above.ratio with
  | true, true =>
    -- nearer when twice the value is below the sum of both
    let twice : Ratio := ⟨2 * value.num, value.den⟩
    if twice.lt (Ratio.scale (2 * floor + 1) 10 exponent) then some below else some above
  | true, false => some below
  | false, true => some above
  | false, false => none

/-- The shortest decimal that reads back as `m · 2^q`, for `m > 0`. -/
def shortest (m : Nat) (q : Int) : Digits :=
  let value := Ratio.scale m 2 q
  let top := magnitude value
  ((List.range 17).firstM fun n => onGrid m q value top (n + 1)).getD ⟨m, 0⟩

/-- Drops zeros at the end of the digits. -/
def Digits.trim : Nat → Digits → Digits
  | 0, d => d
  | fuel + 1, d =>
    if d.digits ≠ 0 ∧ d.digits % 10 = 0 then Digits.trim fuel ⟨d.digits / 10, d.exponent + 1⟩ else d

/-- A decimal in positional notation. -/
def positional (d : Digits) : String :=
  let ds := Nat.toDigits 10 d.digits
  if 0 ≤ d.exponent then String.ofList (ds ++ List.replicate d.exponent.toNat '0')
  else
    let places := (-d.exponent).toNat
    if places < ds.length then
      String.ofList (ds.take (ds.length - places) ++ '.' :: ds.drop (ds.length - places))
    else String.ofList ('0' :: '.' :: (List.replicate (places - ds.length) '0' ++ ds))

/-- A decimal with one digit before the point and an exponent. -/
def scientific (d : Digits) : String :=
  let ds := Nat.toDigits 10 d.digits
  let e : Int := d.exponent + (ds.length - 1)
  let fraction := if ds.length ≤ 1 then [] else '.' :: ds.drop 1
  let sign := if e < 0 then '-' else '+'
  String.ofList (ds.take 1 ++ fraction ++ 'e' :: sign :: Nat.toDigits 10 e.natAbs)

/-- The literal of a finite number. -/
def literal (x : Float) : String :=
  let b := Binary.ofFloat x
  let sign := if b.negative then "-" else ""
  if b.m = 0 then sign ++ "0"
  else
    let d := (shortest b.m b.q).trim 400
    let top := d.exponent + digitCount d.digits
    sign ++ if -6 < top ∧ top ≤ 21 then positional d else scientific d

end Ripple.Decimal
