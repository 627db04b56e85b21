import Ripple.Word

/-!
# Ripple.Text.Integer

Whole numbers with an optional sign.  `0x`, `0o` and `0b` in front name the base, a plain `0` means
octal, and an underscore may stand between two digits or after the name of the base.
-/

namespace Ripple.Text.Integer

/-- The value of a digit in any base up to 36. -/
def digit? (c : Char) : Option Nat :=
  if c.isDigit then some (c.toNat - 48)
  else if c.isLower then some (c.toNat - 87)
  else if c.isUpper then some (c.toNat - 55)
  else none

/-- The value of digits of a base on top of `n`; underscores are passed over. -/
def value? (base n : Nat) : List Char → Option Nat
  | [] => some n
  | '_' :: rest => value? base n rest
  | c :: rest =>
    match digit? c with
    | some d => if d < base then value? base (n * base + d) rest else none
    | none => none

/-- Whether underscores stand only after a digit and before one; `after` tells whether the character
before was a digit. -/
def underscoresFit (after : Bool) : List Char → Bool
  | [] => true
  | ['_'] => false
  | '_' :: rest => after && underscoresFit false rest
  | _ :: rest => underscoresFit true rest

/-- The base that a number names, its digits, and whether the name of the base counts as a digit. -/
def base : List Char → Nat × List Char × Bool
  | '0' :: c :: d :: rest =>
    if c == 'x' || c == 'X' then (16, d :: rest, true)
    else if c == 'o' || c == 'O' then (8, d :: rest, true)
    else if c == 'b' || c == 'B' then (2, d :: rest, true)
    else (8, '0' :: c :: d :: rest, false)
  | '0' :: rest => (8, '0' :: rest, false)
  | cs => (10, cs, false)

/-- The value of a number without a sign. -/
def natural? (cs : List Char) : Option Nat :=
  let (b, digits, named) := base cs
  if digits.isEmpty || !underscoresFit named digits then none else value? b 0 digits

/-- The number that a text stands for. -/
def parse? (s : String) : Option Int :=
  match s.toList with
  | '-' :: rest => (natural? rest).map fun n => -(n : Int)
  | '+' :: rest => (natural? rest).map fun n => (n : Int)
  | cs => (natural? cs).map fun n => (n : Int)

/-- Whether a number fits 63 bits and a sign. -/
def fits (n : Int) : Bool := -Word.half ≤ n && n < Word.half

end Ripple.Text.Integer

/-! ## numbers of limited size -/

namespace Ripple.Text

/-- Why a text is no number. -/
inductive NumberProblem where
  | malformed
  | tooLarge
  deriving DecidableEq, Repr

/-- The text of a problem. -/
def NumberProblem.message : NumberProblem → String
  | malformed => "invalid syntax"
  | tooLarge => "value out of range"

namespace Integer

/-- The value of digits of a base on top of `n`, as long as it fits 64 bits.  The first thing that
is wrong counts. -/
def scan (base n : Nat) : List Char → Except NumberProblem Nat
  | [] => .ok n
  | '_' :: rest => scan base n rest
  | c :: rest =>
    match digit? c with
    | none => .error .malformed
    | some d =>
      if base ≤ d then .error .malformed
      else if Word.count ≤ n * base + d then .error .tooLarge
      else scan base (n * base + d) rest

/-- The number without a sign that fits 64 bits. -/
def readNatural (cs : List Char) : Except NumberProblem Nat := do
  let (b, digits, named) := base cs
  if digits.isEmpty then throw .malformed
  let n ← scan b 0 digits
  if underscoresFit named digits then return n else throw .malformed

/-- The number that fits 63 bits and a sign. -/
def read (s : String) : Except NumberProblem Int := do
  let (negative, digits) := match s.toList with
    | '-' :: rest => (true, rest)
    | '+' :: rest => (false, rest)
    | cs => (false, cs)
  let n ← readNatural digits
  let n : Int := if negative then -n else n
  if fits n then return n else throw .tooLarge

end Integer

end Ripple.Text
