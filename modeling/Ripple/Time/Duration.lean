import Ripple.Text.Padding
import Ripple.Text.Quoted
import Ripple.Text.Search
import Ripple.Word

/-!
# Ripple.Time.Duration

Spans of time, in nanoseconds.  They fit 63 bits and a sign, and an operation whose result does not
stops at the nearest end.

* `render` writes hours, minutes and seconds (`25h1m1.123s`), and a span below one second in the
  largest unit of which it has at least one (`1.5ms`);
* `parse` reads a sum of decimal multiples of units (`1h30m`, `1.5s`).
-/

namespace Ripple.Duration

/-- The largest span. -/
def largest : Int := Word.half - 1

/-- The smallest span. -/
def smallest : Int := -Word.half

/-- The nearest span that fits. -/
def clamp (n : Int) : Int := max smallest (min largest n)

/-- The span from one moment to another. -/
def between (start stop : Int) : Int := clamp (stop - start)

/-- The nearest multiple of a unit; a half goes away from zero. -/
def round (unit : Nat) (d : Int) : Int :=
  let size := (d.natAbs + unit / 2) / unit * unit
  clamp (if d < 0 then -size else size)

/-! ## writing -/

/-- The digits of a fraction of `places` places, with the point and without zeros at the end. -/
def fraction (places n : Nat) : String :=
  let digits := (Text.padLeft places (toString n) '0').toList
  let kept := (digits.reverse.dropWhile (· == '0')).reverse
  if kept.isEmpty then "" else String.ofList ('.' :: kept)

/-- A span from zero up, without a sign. -/
def renderSize (n : Nat) : String :=
  if n = 0 then "0s"
  else if n < 1000 then s!"{n}ns"
  else if n < 1000000 then s!"{n / 1000}{fraction 3 (n % 1000)}µs"
  else if n < 1000000000 then s!"{n / 1000000}{fraction 6 (n % 1000000)}ms"
  else
    let seconds := n / 1000000000
    let tail := s!"{seconds % 60}{fraction 9 (n % 1000000000)}s"
    let minutes := seconds / 60
    if minutes = 0 then tail
    else if minutes < 60 then s!"{minutes}m{tail}"
    else s!"{minutes / 60}h{minutes % 60}m{tail}"

/-- A span as text. -/
def render (d : Int) : String :=
  if d < 0 then "-" ++ renderSize d.natAbs else renderSize d.toNat

/-! ## reading -/

/-- The nanoseconds of a unit. -/
def unit? : String → Option Nat
  | "ns" => some 1
  | "us" => some 1000
  | "µs" => some 1000
  | "μs" => some 1000
  | "ms" => some 1000000
  | "s" => some 1000000000
  | "m" => some 60000000000
  | "h" => some 3600000000000
  | _ => none

/-- The value of some digits, on top of a value. -/
def digitsValue (start : Nat) (ds : List Char) : Nat :=
  ds.foldl (fun n d => n * 10 + (d.toNat - 48)) start

/-- The digits of a fraction that are kept, as a number with its power of ten: those before the
number would exceed 63 bits. -/
def fractionValue : Nat → Float → List Char → Nat × Float
  | n, scale, [] => (n, scale)
  | n, scale, d :: ds =>
    let next := n * 10 + (d.toNat - 48)
    if n > (Word.half - 1) / 10 ∨ next > Word.half then (n, scale)
    else fractionValue next (scale * 10) ds

/-- Whether a character belongs to a number. -/
def isNumeric (c : Char) : Bool := c == '.' || c.isDigit

/-- Why a text is no span. -/
inductive Problem where
  | malformed
  | missingUnit
  | unknownUnit (name : String)
  deriving DecidableEq, Repr

/-- The message about a text that is no span. -/
def Problem.message (text : String) : Problem → String
  | malformed => "time: invalid duration " ++ Text.quoteBytes (Text.bytes text)
  | missingUnit => "time: missing unit in duration " ++ Text.quoteBytes (Text.bytes text)
  | unknownUnit name => "time: unknown unit " ++ Text.quoteBytes (Text.bytes name) ++
      " in duration " ++ Text.quoteBytes (Text.bytes text)

/-- One decimal multiple of a unit at the front, in nanoseconds, with the rest. -/
def term (cs : List Char) : Except Problem (Nat × List Char) := do
  let whole := cs.takeWhile Char.isDigit
  let rest := cs.dropWhile Char.isDigit
  let v := digitsValue 0 whole
  if v > Word.half then throw .malformed
  let (frac, rest) := match rest with
    | '.' :: r => (r.takeWhile Char.isDigit, r.dropWhile Char.isDigit)
    | r => ([], r)
  if whole.isEmpty && frac.isEmpty then throw .malformed
  let name := rest.takeWhile (fun c => !isNumeric c)
  let rest := rest.dropWhile (fun c => !isNumeric c)
  if name.isEmpty then throw .missingUnit
  match unit? (String.ofList name) with
  | none => throw (.unknownUnit (String.ofList name))
  | some unit =>
    if v > Word.half / unit then throw .malformed
    let (f, scale) := fractionValue 0 1 frac
    let part := (Float.ofNat f * (Float.ofNat unit / scale)).toUInt64.toNat
    let total := v * unit + part
    if total > Word.half then throw .malformed
    return (total, rest)

/-- The sum of the terms of a text; a text has fewer terms than characters. -/
def terms : Nat → Nat → List Char → Except Problem Nat
  | 0, _, _ => .error .malformed
  | _ + 1, sum, [] => .ok sum
  | fuel + 1, sum, cs => do
    let (n, rest) ← term cs
    if sum + n > Word.half then throw .malformed
    terms fuel (sum + n) rest

/-- The span that a text stands for.  A zero needs no unit. -/
def parse (s : String) : Except Problem Int :=
  let (negative, cs) := match s.toList with
    | '-' :: rest => (true, rest)
    | '+' :: rest => (false, rest)
    | cs => (false, cs)
  match cs with
  | [] => .error .malformed
  | ['0'] => .ok 0
  | cs => do
    let n ← terms (cs.length + 1) 0 cs
    if negative then return -n else if n > Word.half - 1 then throw .malformed else return n

end Ripple.Duration
