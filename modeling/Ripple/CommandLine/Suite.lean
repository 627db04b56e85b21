import Ripple.CommandLine.Parsed

/-!
# Ripple.CommandLine.Suite

Programs with commands.  The first argument that is neither a flag nor the value of one names the
command; its flags may stand before the name or after it.  Only the flags that all commands share
are known while the name is looked for, so any other flag before the name counts as one with a
value.
-/

namespace Ripple.CommandLine

/-- How many arguments a command takes. -/
inductive Arity where
  | none
  | exactly (n : Nat)
  | atMost (n : Nat)
  deriving DecidableEq, Repr

/-- A command, with what it is for. -/
structure Command (κ : Type) where
  name : String
  purpose : κ
  flags : List Flag
  arity : Arity

/-- Why arguments are not understood. -/
inductive UsageError where
  | flag (e : FlagError)
  | unknownCommand (name program : String) (similar : List String)
  | wrongCount (exact : Bool) (expected received : Nat)
  deriving DecidableEq, Repr

/-- The message of an error. -/
def UsageError.message : UsageError → String
  | flag e => e.message
  | unknownCommand name program similar =>
    s!"unknown command {Text.quote name} for {Text.quote program}" ++
      if similar.isEmpty then ""
      else "\n\nDid you mean this?\n" ++ Text.join "" (similar.map fun s => s!"\t{s}\n")
  | wrongCount true expected received => s!"accepts {expected} arg(s), received {received}"
  | wrongCount false expected received =>
    s!"accepts at most {expected} arg(s), received {received}"

/-- What is asked for. -/
inductive Wish (κ : Type) where
  | help
  | run (purpose : κ) (arguments : Parsed)

/-! ## one command -/

/-- The flag that asks for help. -/
def helpFlag : Flag := ⟨"help", some 'h', .switch⟩

/-- Checks the number of arguments of the command with a path. -/
def Arity.check (path : String) (arguments : List String) : Arity → Except UsageError Unit
  | none =>
    match arguments with
    | [] => .ok ()
    | a :: _ => .error (.unknownCommand a path [])
  | exactly n =>
    if arguments.length = n then .ok () else .error (.wrongCount true n arguments.length)
  | atMost n =>
    if arguments.length ≤ n then .ok () else .error (.wrongCount false n arguments.length)

/-- Reads the arguments of a command with a path; `shared` are flags that it has besides its own. -/
def Command.read (c : Command κ) (path : String) (shared : List Flag) (arguments : List String) :
    Except UsageError (Wish κ) := do
  let p ← (parse (c.flags ++ shared ++ [helpFlag]) arguments).mapError .flag
  if p.isOn helpFlag.name then return .help
  c.arity.check path p.arguments
  return .run c.purpose p

/-! ## the name of the command -/

/-- Whether an argument is a flag that takes the next argument as its value. -/
def takesNext (flags : List Flag) (s : String) : Bool :=
  !s.toList.contains '=' &&
    match s.toList with
    | '-' :: '-' :: name => !(named? flags (String.ofList name)).any (·.kind = .switch)
    | ['-', c] => c.utf8Size = 1 && !(lettered? flags c).any (·.kind = .switch)
    | _ => false

/-- The arguments that are neither flags nor values of flags.  A flag with a value stops the search
when it is the last argument but one. -/
def words (flags : List Flag) (skip : Bool) : List String → List String
  | [] => []
  | s :: rest =>
    if skip then words flags false rest
    else if s = "--" then []
    else if takesNext flags s then if rest.length ≤ 1 then [] else words flags true rest
    else if s.isEmpty || Text.hasPrefix s "-" then words flags false rest
    else s :: words flags false rest

/-- The arguments without the first one that is a given word. -/
def without (flags : List Flag) (word : String) (skip : Bool) : List String → List String
  | [] => []
  | s :: rest =>
    if skip then s :: without flags word false rest
    else if s = "--" then s :: rest
    else if takesNext flags s then s :: without flags word true rest
    else if s = word && !Text.hasPrefix s "-" then rest
    else s :: without flags word false rest

/-! ## similar names -/

/-- One row of the table of distances: `above` is the row above, `left` the entry to the left and
`corner` the entry above that. -/
def distanceRow (b : UInt8) : List UInt8 → List Nat → Nat → Nat → List Nat
  | a :: as, up :: ups, left, corner =>
    let here := if a = b then corner else min (min up left) corner + 1
    here :: distanceRow b as ups here up
  | _, _, _, _ => []

/-- The last row of the table of distances below a row that starts with `first`. -/
def distanceRows (as : List UInt8) : List UInt8 → Nat → List Nat → Nat × List Nat
  | [], first, row => (first, row)
  | b :: bs, first, row => distanceRows as bs (first + 1) (distanceRow b as row (first + 1) first)

/-- How many bytes have to be put in, left out or replaced to turn one text into the other. -/
def distance (s t : String) : Nat :=
  let as := Text.bytes s
  let (first, row) := distanceRows as (Text.bytes t) 0 ((List.range as.length).map (· + 1))
  row.getLastD first

/-- Whether a name could have been meant by a word. -/
def isSimilar (word name : String) : Bool :=
  let w := word.map Char.toLower
  let n := name.map Char.toLower
  distance w n ≤ 2 || Text.hasPrefix n w

/-! ## programs -/

/-- A program with commands. -/
structure Suite (κ : Type) where
  name : String
  /-- The flags that all commands have. -/
  shared : List Flag
  commands : List (Command κ)

namespace Suite

/-- The commands that every program has besides its own. -/
def builtIn : List String := ["help", "completion"]

/-- The names that are proposed in place of an unknown one. -/
def proposals (s : Suite κ) (word : String) : List String :=
  (s.commands.map (·.name) ++ ["completion"]).filter (isSimilar word)

/-- Reads the arguments of a program.  Without a command, help is asked for. -/
def read (s : Suite κ) (arguments : List String) : Except UsageError (Wish κ) :=
  match words s.shared false arguments with
  | [] => do
    let _ ← (parse (s.shared ++ [helpFlag]) arguments).mapError UsageError.flag
    return .help
  | word :: _ =>
    match s.commands.find? (·.name = word) with
    | some c => c.read s!"{s.name} {c.name}" s.shared (without s.shared word false arguments)
    | none =>
      if builtIn.contains word then .ok .help
      else .error (.unknownCommand word s.name (s.proposals word))

end Suite

end Ripple.CommandLine
