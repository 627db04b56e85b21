import Ripple.Text.Quoted
import Ripple.Time.Date

/-!
# Ripple.Time.Stamp

Reading of exact times such as `2024-01-02T03:04:05.123456789+02:00`.  The parts stand in a fixed
order, and each is read from the front of what is left.  The first part that cannot be read, or
whose value is out of range, is the error; whether the month has the day is asked last.

Digits are ASCII, so the text is taken byte by byte.
-/

namespace Ripple.Stamp

open Text (bytes quoteBytes)

/-- Why a text is not a time. -/
inductive Problem where
  /-- At `rest` a part of the form was expected. -/
  | expected (part : String) (rest : List UInt8)
  | outOfRange (part : String)
  | extra (rest : List UInt8)
  deriving Repr

/-- The form of a time, by example. -/
def form : String := "2006-01-02T15:04:05.999999999Z07:00"

/-- The message about a text that is not a time. -/
def Problem.message (text : String) : Problem → String
  | expected part rest =>
    s!"parsing time {quoteBytes (bytes text)} as {quoteBytes (bytes form)}: cannot parse " ++
      s!"{quoteBytes rest} as {quoteBytes (bytes part)}"
  | outOfRange part => s!"parsing time {quoteBytes (bytes text)}: {part} out of range"
  | extra rest => s!"parsing time {quoteBytes (bytes text)}: extra text: {quoteBytes rest}"

/-- A step that takes a part from the front of what is left. -/
abbrev Reader := StateT (List UInt8) (Except Problem)

/-- Whether a byte is a digit. -/
def isDigit (b : UInt8) : Bool := 48 ≤ b && b ≤ 57

/-- The value of a digit. -/
def digit (b : UInt8) : Nat := b.toNat - 48

/-- The value of some digits. -/
def value (ds : List UInt8) : Nat := ds.foldl (fun n d => n * 10 + digit d) 0

/-- A fixed character. -/
def mark (c : Char) : Reader Unit := fun bs =>
  match bs with
  | b :: rest =>
    if b.toNat = c.toNat then .ok ((), rest) else .error (.expected (String.singleton c) bs)
  | [] => .error (.expected (String.singleton c) bs)

/-- A year of four digits. -/
def year : Reader Nat := fun bs =>
  let ds := bs.take 4
  if ds.length = 4 ∧ ds.all isDigit then .ok (value ds, bs.drop 4) else .error (.expected "2006" bs)

/-- A number of two digits. -/
def pair? : List UInt8 → Option (Nat × List UInt8)
  | a :: b :: rest => if isDigit a && isDigit b then some (value [a, b], rest) else none
  | _ => none

/-- A number of two digits within bounds. -/
def pair (part name : String) (low high : Nat) : Reader Nat := fun bs =>
  match pair? bs with
  | none => .error (.expected part bs)
  | some (n, rest) => if low ≤ n ∧ n ≤ high then .ok (n, rest) else .error (.outOfRange name)

/-- A number of one or two digits. -/
def single? : List UInt8 → Option (Nat × List UInt8)
  | a :: b :: rest =>
    if isDigit a then if isDigit b then some (value [a, b], rest) else some (digit a, b :: rest)
    else none
  | [a] => if isDigit a then some (digit a, []) else none
  | [] => none

/-- The hour, of one or two digits. -/
def hour : Reader Nat := fun bs =>
  match single? bs with
  | none => .error (.expected "15" bs)
  | some (n, rest) => if n < 24 then .ok (n, rest) else .error (.outOfRange "hour")

/-- The fraction of the second after a point or a comma, in nanoseconds; further digits are
dropped, and it may be missing. -/
def fraction : Reader Nat := fun bs =>
  match bs with
  | p :: rest =>
    let ds := rest.takeWhile isDigit
    if (p = 46 ∨ p = 44) ∧ ds ≠ [] then
      let kept := ds.take 9
      .ok (value kept * Nat.pow 10 (9 - kept.length), rest.drop ds.length)
    else .ok (0, bs)
  | [] => .ok (0, bs)

/-- The offset from UTC, in seconds. -/
def offset : Reader Int := fun bs =>
  match bs with
  | 90 :: rest => .ok (0, rest)
  | sign :: h1 :: h2 :: 58 :: m1 :: m2 :: rest =>
    let hours := (pair? [h1, h2]).map (·.1)
    let minutes := if hours.isSome then (pair? [m1, m2]).map (·.1) else none
    if hours.getD 0 > 24 then .error (.outOfRange "time zone offset hour")
    else if minutes.getD 0 > 60 then .error (.outOfRange "time zone offset minute")
    else
      match hours, minutes with
      | some h, some m =>
        let seconds : Int := ((h * 60 + m) * 60 : Nat)
        if sign = 43 then .ok (seconds, rest)
        else if sign = 45 then .ok (-seconds, rest)
        else .error (.expected "Z07:00" bs)
      | _, _ => .error (.expected "Z07:00" bs)
  | _ => .error (.expected "Z07:00" bs)

/-- Nothing is left. -/
def done : Reader Unit := fun bs =>
  if bs.isEmpty then .ok ((), bs) else .error (.extra bs)

/-- All parts of a time in their order. -/
def time : Reader Timestamp := do
  let y ← year
  mark '-'
  let month ← pair "01" "month" 1 12
  mark '-'
  let day ← pair "02" "day" 0 99
  mark 'T'
  let h ← hour
  mark ':'
  let minute ← pair "04" "minute" 0 59
  mark ':'
  let second ← pair "05" "second" 0 59
  let nanosecond ← fraction
  let off ← offset
  done
  if day = 0 ∨ day > Date.daysIn y month then throw (.outOfRange "day")
  return (Moment.mk ⟨y, month, day⟩ h minute second nanosecond).timestamp - off * 1000000000

/-- The time that a text stands for. -/
def parse (s : String) : Except Problem Timestamp :=
  (time.run (bytes s)).map (·.1)

/-! ## loose forms -/

/-- A number of one or two digits within bounds. -/
def loosePair (part name : String) (low high : Nat) : Reader Nat := fun bs =>
  match single? bs with
  | none => .error (.expected part bs)
  | some (n, rest) => if low ≤ n ∧ n ≤ high then .ok (n, rest) else .error (.outOfRange name)

/-- Blanks, at least one unless nothing is left. -/
def blanks : Reader Unit := fun bs =>
  match bs with
  | [] => .ok ((), bs)
  | b :: _ => if b = 32 then .ok ((), bs.dropWhile (· = 32)) else .error (.expected " " bs)

/-- A day whose month and day may have one digit. -/
def looseDay : Reader Unit := do
  let y ← year
  mark '-'
  let month ← loosePair "1" "month" 1 12
  mark '-'
  let day ← loosePair "2" "day" 0 99
  if day = 0 ∨ day > Date.daysIn y month then throw (.outOfRange "day")

/-- A time of day whose parts may have one digit. -/
def looseClock : Reader Unit := do
  let _ ← hour
  mark ':'
  let _ ← loosePair "4" "minute" 0 59
  mark ':'
  let _ ← loosePair "5" "second" 0 59
  let _ ← fraction

/-- The forms in which a time stands unquoted among other values. -/
def looseForms : List (Reader Unit) :=
  [do looseDay; mark 'T'; looseClock; discard offset,
    do looseDay; mark 't'; looseClock; discard offset, do looseDay; blanks; looseClock, looseDay]

/-- Whether a text is a day, or a day with a time. -/
def isLoose (s : String) : Bool :=
  looseForms.any fun r => match (r *> done).run (bytes s) with
    | .ok _ => true
    | .error _ => false

end Ripple.Stamp
