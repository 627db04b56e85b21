import Ripple.Json.Basic

/-!
# Ripple.Json.Reader

Reading of JSON texts.  The grammar is the strict one: no comments, no trailing commas, no leading
zeros, no control characters in strings.  A lone surrogate escape reads as U+FFFD.
-/

namespace Ripple.Json

/-- The blanks that may stand between the tokens of a JSON text. -/
def isGap (c : Char) : Bool := c == ' ' || c == '\n' || c == '\t' || c == '\r'

/-- The rest after the blanks at the front. -/
def skipGap (cs : List Char) : List Char := cs.dropWhile isGap

/-- The value of four hexadecimal digits. -/
def hex4? (a b c d : Char) : Option Nat := do
  return (← Text.hexValue? a) * 4096 + (← Text.hexValue? b) * 256 + (← Text.hexValue? c) * 16 +
    (← Text.hexValue? d)

/-- The character of the escapes that are a single letter. -/
def letterEscape? : Char → Option Char
  | '"' => some '"'
  | '\\' => some '\\'
  | '/' => some '/'
  | 'b' => some '\x08'
  | 'f' => some '\x0c'
  | 'n' => some '\n'
  | 'r' => some '\r'
  | 't' => some '\t'
  | _ => none

/-- What was read so far, with a high surrogate that no low one followed. -/
def settle (high : Option Nat) (acc : List Char) : List Char :=
  if high.isSome then '�' :: acc else acc

/-- The characters of a string up to its closing quote, with the rest.  `acc` is what was read so
far, the latest first; `high` is a high surrogate that waits for its low one. -/
def stringBody (high : Option Nat) (acc : List Char) : List Char → Option (String × List Char)
  | [] => none
  | '"' :: rest => some (String.ofList (settle high acc).reverse, rest)
  | '\\' :: 'u' :: a :: b :: c :: d :: rest =>
    match hex4? a b c d with
    | none => none
    | some n =>
      if 0xd800 ≤ n ∧ n < 0xdc00 then stringBody (some n) (settle high acc) rest
      else if 0xdc00 ≤ n ∧ n < 0xe000 then
        match high with
        | some h =>
          stringBody none (Char.ofNat (0x10000 + (h - 0xd800) * 1024 + (n - 0xdc00)) :: acc) rest
        | none => stringBody none ('�' :: acc) rest
      else stringBody none (Char.ofNat n :: settle high acc) rest
  | '\\' :: e :: rest =>
    match letterEscape? e with
    | some c => stringBody none (c :: settle high acc) rest
    | none => none
  | c :: rest =>
    if c.toNat < 0x20 || c == '\\' then none else stringBody none (c :: settle high acc) rest

/-- Digits at the front, at least one, with the rest. -/
def digits? (cs : List Char) : Option (List Char × List Char) :=
  let ds := cs.takeWhile Char.isDigit
  if ds.isEmpty then none else some (ds, cs.dropWhile Char.isDigit)

/-- The whole part of a number: no leading zero unless it is the only digit. -/
def wholePart? : List Char → Option (List Char × List Char)
  | '0' :: rest => some (['0'], rest)
  | cs => digits? cs

/-- The fraction of a number, which may be missing. -/
def fraction? : List Char → Option (List Char × List Char)
  | '.' :: rest => (digits? rest).map fun (ds, r) => ('.' :: ds, r)
  | cs => some ([], cs)

/-- The exponent of a number, which may be missing. -/
def exponent? : List Char → Option (List Char × List Char)
  | e :: rest =>
    if e == 'e' || e == 'E' then
      match rest with
      | '+' :: r => (digits? r).map fun (ds, r) => (e :: '+' :: ds, r)
      | '-' :: r => (digits? r).map fun (ds, r) => (e :: '-' :: ds, r)
      | r => (digits? r).map fun (ds, r) => (e :: ds, r)
    else some ([], e :: rest)
  | [] => some ([], [])

/-- The literal of a number, with the rest. -/
def number? (cs : List Char) : Option (String × List Char) := do
  let (sign, cs) := match cs with
    | '-' :: rest => (['-'], rest)
    | cs => ([], cs)
  let (whole, cs) ← wholePart? cs
  let (frac, cs) ← fraction? cs
  let (exp, cs) ← exponent? cs
  return (String.ofList (sign ++ whole ++ frac ++ exp), cs)

/-- The rest after a fixed word. -/
def word? : List Char → List Char → Option (List Char)
  | [], cs => some cs
  | w :: ws, c :: cs => if w == c then word? ws cs else none
  | _ :: _, [] => none

mutual

/-- A value at the front, with the rest; each nested value takes one unit of fuel. -/
def value? : Nat → List Char → Option (Json × List Char)
  | 0, _ => none
  | fuel + 1, cs =>
    match skipGap cs with
    | '"' :: rest => (stringBody none [] rest).map fun (s, r) => (.string s, r)
    | '[' :: rest =>
      match skipGap rest with
      | ']' :: r => some (.array [], r)
      | _ => (items? fuel rest).map fun (vs, r) => (.array vs, r)
    | '\x7b' :: rest =>
      match skipGap rest with
      | '\x7d' :: r => some (.object [], r)
      | _ => (members? fuel rest).map fun (ms, r) => (.object ms, r)
    | 't' :: rest => (word? ['r', 'u', 'e'] rest).map fun r => (.bool true, r)
    | 'f' :: rest => (word? ['a', 'l', 's', 'e'] rest).map fun r => (.bool false, r)
    | 'n' :: rest => (word? ['u', 'l', 'l'] rest).map fun r => (.null, r)
    | cs => (number? cs).map fun (n, r) => (.number n, r)

/-- Values up to a closing bracket. -/
def items? : Nat → List Char → Option (List Json × List Char)
  | 0, _ => none
  | fuel + 1, cs =>
    match value? fuel cs with
    | none => none
    | some (v, rest) =>
      match skipGap rest with
      | ',' :: r => (items? fuel r).map fun (vs, r) => (v :: vs, r)
      | ']' :: r => some ([v], r)
      | _ => none

/-- Members up to a closing brace. -/
def members? : Nat → List Char → Option (List (String × Json) × List Char)
  | 0, _ => none
  | fuel + 1, cs =>
    match skipGap cs with
    | '"' :: rest =>
      match stringBody none [] rest with
      | none => none
      | some (k, rest) =>
        match skipGap rest with
        | ':' :: rest =>
          match value? fuel rest with
          | none => none
          | some (v, rest) =>
            match skipGap rest with
            | ',' :: r => (members? fuel r).map fun (ms, r) => ((k, v) :: ms, r)
            | '\x7d' :: r => some ([(k, v)], r)
            | _ => none
        | _ => none
    | _ => none

end

/-- The value of a JSON text, if it is one. -/
def parse? (s : String) : Option Json :=
  let cs := s.toList
  match value? (2 * cs.length + 2) cs with
  | some (v, rest) => if (skipGap rest).isEmpty then some v else none
  | none => none

/-! ## access -/

/-- The value of a member; of several with one name the last counts. -/
def get? (v : Json) (name : String) : Option Json :=
  match v with
  | .object members => (members.reverse.find? (·.1 == name)).map (·.2)
  | _ => none

/-- A list of texts.  `null` stands for the empty list, and for the empty text inside one. -/
def texts? : Json → Option (List String)
  | .null => some []
  | .array items => items.mapM fun
    | .string s => some s
    | .null => some ""
    | _ => none
  | _ => none

end Ripple.Json
