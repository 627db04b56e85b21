import Ripple.CommandLine.Flag
import Ripple.Text.Search

/-!
# Ripple.CommandLine.Parsed

Arguments of a command, taken apart into flags and the rest.

1. `--name=value` and `--name value` give a flag by its name, `-nvalue`, `-n=value` and `-n value`
   by its letter.
2. A switch takes a value only after an equals sign; letters of switches can stand together.
3. After `--` there are no more flags.
-/

namespace Ripple.CommandLine

/-- Flags with their values, in order, and the other arguments. -/
structure Parsed where
  values : List (String × FlagValue)
  arguments : List String

namespace Parsed

/-- The value that a flag was given last. -/
def value? (p : Parsed) (name : String) : Option FlagValue := p.values.reverse.lookup name

/-- Whether a flag was given. -/
def given (p : Parsed) (name : String) : Bool := (p.value? name).isSome

/-- The text that a flag was given. -/
def text? (p : Parsed) (name : String) : Option String :=
  match p.value? name with
  | some (.text s) => some s
  | _ => none

/-- The number that a flag was given. -/
def integer? (p : Parsed) (name : String) : Option Int :=
  match p.value? name with
  | some (.integer n) => some n
  | _ => none

/-- The number without a sign that a flag was given. -/
def natural? (p : Parsed) (name : String) : Option Nat :=
  match p.value? name with
  | some (.natural n) => some n
  | _ => none

/-- The decimal that a flag was given. -/
def decimal? (p : Parsed) (name : String) : Option Float :=
  match p.value? name with
  | some (.decimal x) => some x
  | _ => none

/-- The span that a flag was given. -/
def span? (p : Parsed) (name : String) : Option Int :=
  match p.value? name with
  | some (.span d) => some d
  | _ => none

/-- Whether a switch is on. -/
def isOn (p : Parsed) (name : String) : Bool :=
  match p.value? name with
  | some (.switch b) => b
  | _ => false

end Parsed

/-- The flag with a name. -/
def named? (flags : List Flag) (name : String) : Option Flag := flags.find? (·.name = name)

/-- The flag with a letter. -/
def lettered? (flags : List Flag) (c : Char) : Option Flag := flags.find? (·.letter = some c)

/-- Gives a flag a value. -/
def assign (f : Flag) (value : String) : Except FlagError (String × FlagValue) :=
  match f.kind.read value with
  | .ok v => .ok (f.name, v)
  | .error p => .error (.badValue f value p)

/-- A flag whose value is the next argument, and whether it was given by its letter. -/
structure Waiting where
  flag : Flag
  byLetter : Bool

/-- What an argument gives: flags with values, and perhaps one that waits for its value. -/
structure Given where
  values : List (String × FlagValue)
  waiting : Option Waiting

/-- The error of a flag that waits in vain. -/
def Waiting.error (w : Waiting) : FlagError :=
  match w.byLetter, w.flag.letter with
  | true, some c => .letterNeedsValue c
  | _, _ => .needsValue w.flag.name

/-- Reads what follows two dashes. -/
def readName (flags : List Flag) (body : List Char) : Except FlagError Given := do
  let whole := String.ofList body
  if body.head? = some '-' || body.head? = some '=' then throw (.badForm ("--" ++ whole))
  let name := Text.upTo '=' whole
  match named? flags name with
  | none => throw (.unknown name)
  | some f =>
    match body.drop name.length with
    | _ :: value => return ⟨[← assign f (String.ofList value)], none⟩
    | [] =>
      if f.kind = .switch then return ⟨[← assign f "true"], none⟩
      else return ⟨[], some ⟨f, false⟩⟩

/-- The character that the first byte of a character stands for. -/
def firstByte (c : Char) : Char := Char.ofNat ((Text.bytes c.toString).headD 0).toNat

/-- Reads the letters that follow one dash.  Options of a test run are passed over. -/
def readLetters (flags : List Flag) : List Char → Except FlagError Given
  | [] => .ok ⟨[], none⟩
  | c :: rest => do
    let letters := String.ofList (c :: rest)
    if Text.hasPrefix letters "test." then return ⟨[], none⟩
    match lettered? flags c with
    | none => throw (.unknownLetter (firstByte c) letters)
    | some f =>
      match rest with
      | '=' :: v :: value => return ⟨[← assign f (String.ofList (v :: value))], none⟩
      | rest =>
        if f.kind = .switch then
          let v ← assign f "true"
          let g ← readLetters flags rest
          return { g with values := v :: g.values }
        else if rest.isEmpty then return ⟨[], some ⟨f, true⟩⟩
        else return ⟨[← assign f (String.ofList rest)], none⟩

/-- Takes arguments apart; the first of them may be the value of a flag that waits. -/
def parseAfter (flags : List Flag) (waiting : Option Waiting) :
    List String → Except FlagError Parsed
  | [] =>
    match waiting with
    | some w => .error w.error
    | none => .ok ⟨[], []⟩
  | s :: rest => do
    match waiting with
    | some w =>
      let v ← assign w.flag s
      let p ← parseAfter flags none rest
      return { p with values := v :: p.values }
    | none =>
      match s.toList with
      | ['-', '-'] => return ⟨[], rest⟩
      | '-' :: '-' :: body => flagsThen (← readName flags body) rest
      | '-' :: c :: body => flagsThen (← readLetters flags (c :: body)) rest
      | _ =>
        let p ← parseAfter flags none rest
        return { p with arguments := s :: p.arguments }
where
  flagsThen (g : Given) (rest : List String) : Except FlagError Parsed := do
    let p ← parseAfter flags g.waiting rest
    return { p with values := g.values ++ p.values }

/-- Takes arguments apart. -/
def parse (flags : List Flag) (arguments : List String) : Except FlagError Parsed :=
  parseAfter flags none arguments

end Ripple.CommandLine
