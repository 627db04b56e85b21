import Ripple.Json.Reader
import Ripple.Settings.Yaml.Cursor

/-!
# Ripple.Settings.Yaml.Scalar

The texts of scalars: plain, in single or double quotes, and as blocks of lines.  Every reader takes
the characters from the start of the scalar and gives its text with the characters after it, or
nothing when the text is not well formed.  Texts are collected with the latest character first.
-/

namespace Ripple.Settings.Yaml

/-- The blanks and line ends since the last character of a scalar. -/
structure Pause where
  /-- The blanks, the latest first, as long as no line has ended. -/
  blanks : List Char := []
  /-- The first line end. -/
  first : Option Char := none
  /-- Further line ends, the latest first. -/
  more : List Char := []
  /-- The first line end was escaped, so that it does not count. -/
  joined : Bool := false

namespace Pause

/-- Whether a line has ended. -/
def ended (p : Pause) : Bool := p.first.isSome || p.joined

/-- Whether nothing stands between two characters. -/
def isEmpty (p : Pause) : Bool := p.blanks.isEmpty && !p.ended

/-- A pause with one more blank or line end. -/
def add (p : Pause) (c : Char) : Pause :=
  if isBreak c then
    if p.ended then { p with more := c :: p.more } else { blanks := [], first := some c }
  else if p.ended then p
  else { p with blanks := c :: p.blanks }

/-- What a pause becomes in the text, the latest character first: one line feed is a blank, and of
more the first is left out; the other line ends all stay. -/
def text (p : Pause) : List Char :=
  match p.first with
  | some '\n' => if p.more.isEmpty then [' '] else p.more
  | some c => p.more ++ [c]
  | none => if p.joined then p.more else p.blanks

end Pause

/-! ## plain scalars -/

/-- Whether a plain scalar may start here. -/
def startsPlain (flow : Bool) : List Char → Bool
  | [] => false
  | c :: rest =>
    if isSpace c || isBreak c then false
    else if !isIndicator c then true
    else if c == '-' then !(rest.head?.any isSpace)
    else !flow && (c == '?' || c == ':') && !atGap rest

/-- The characters of a plain scalar, with whether a line has ended after the last.  A further line
belongs to it if it starts at column `indent` or beyond, or inside a flow collection. -/
def plainChars (flow : Bool) (indent : Nat) (acc : List Char) (p : Pause) (column : Nat) :
    List Char → Option (List Char × Bool × List Char)
  | [] => some (acc, p.ended, [])
  | c :: rest =>
    let stop := some (acc, p.ended, c :: rest)
    if isBreak c then plainChars flow indent acc (p.add c) 0 rest
    else if isSpace c then
      if p.ended && column < indent && c == '\t' then none
      else plainChars flow indent acc (p.add c) (column + 1) rest
    else if !p.isEmpty && !flow && column < indent then stop
    else if !p.isEmpty && column == 0 && isDocumentMark (c :: rest) then stop
    else if !p.isEmpty && c == '#' then stop
    else if (c == ':' && atGap rest) || (flow && endsFlow c) then stop
    else plainChars flow indent (c :: (p.text ++ acc)) {} (column + 1) rest

/-! ## quoted scalars -/

/-- The text between single quotes; a quote in it is written twice. -/
def singleChars (acc : List Char) (p : Pause) (column : Nat) :
    List Char → Option (List Char × List Char)
  | [] => none
  | '\x27' :: '\x27' :: rest => singleChars ('\x27' :: (p.text ++ acc)) {} (column + 2) rest
  | '\x27' :: rest => some (p.text ++ acc, rest)
  | c :: rest =>
    if isBreak c then singleChars acc (p.add c) 0 rest
    else if isSpace c then singleChars acc (p.add c) (column + 1) rest
    else if column == 0 && isDocumentMark (c :: rest) then none
    else singleChars (c :: (p.text ++ acc)) {} (column + 1) rest

/-- The character of an escape that is a single letter. -/
def letterEscape? (c : Char) : Option Char :=
  match c with
  | '0' => some (Char.ofNat 0)
  | 'a' => some (Char.ofNat 7)
  | 'b' => some (Char.ofNat 8)
  | 't' | '\t' => some '\t'
  | 'n' => some '\n'
  | 'v' => some (Char.ofNat 11)
  | 'f' => some (Char.ofNat 12)
  | 'r' => some '\r'
  | 'e' => some (Char.ofNat 27)
  | ' ' => some ' '
  | '"' => some '"'
  | '\x27' => some '\x27'
  | '\\' => some '\\'
  | 'N' => some (Char.ofNat 0x85)
  | '_' => some (Char.ofNat 0xa0)
  | 'L' => some (Char.ofNat 0x2028)
  | 'P' => some (Char.ofNat 0x2029)
  | _ => none

/-- The character with a hexadecimal number. -/
def hexChar? (ds : List Char) : Option Char := do
  let n ← ds.foldlM (fun n d => do return n * 16 + (← Text.hexValue? d)) 0
  if n > 0x10ffff || (0xd800 ≤ n && n < 0xe000) then none else some (Char.ofNat n)

/-- The text between double quotes.  After an escaped line end the blanks of the next line do not
count. -/
def doubleChars (acc : List Char) (p : Pause) (column : Nat) :
    List Char → Option (List Char × List Char)
  | [] => none
  | '"' :: rest => some (p.text ++ acc, rest)
  | '\\' :: 'x' :: a :: b :: rest => do
    doubleChars ((← hexChar? [a, b]) :: (p.text ++ acc)) {} (column + 4) rest
  | '\\' :: 'u' :: a :: b :: c :: d :: rest => do
    doubleChars ((← hexChar? [a, b, c, d]) :: (p.text ++ acc)) {} (column + 6) rest
  | '\\' :: 'U' :: a :: b :: c :: d :: e :: f :: g :: h :: rest => do
    let x ← hexChar? [a, b, c, d, e, f, g, h]
    doubleChars (x :: (p.text ++ acc)) {} (column + 10) rest
  | '\\' :: e :: rest =>
    if isBreak e then doubleChars (p.text ++ acc) { joined := true } 0 rest
    else do doubleChars ((← letterEscape? e) :: (p.text ++ acc)) {} (column + 2) rest
  | c :: rest =>
    if isBreak c then doubleChars acc (p.add c) 0 rest
    else if isSpace c then doubleChars acc (p.add c) (column + 1) rest
    else if column == 0 && isDocumentMark (c :: rest) then none
    else if c == '\\' then none
    else doubleChars (c :: (p.text ++ acc)) {} (column + 1) rest

/-! ## block scalars -/

/-- What becomes of the line ends after the last line of a block scalar. -/
inductive Chomp where
  | strip | clip | keep
  deriving DecidableEq, Repr

/-- The mark that tells what becomes of the last line ends, if it is at the front. -/
def chomp? : List Char → Option Chomp × List Char
  | '+' :: rest => (some .keep, rest)
  | '-' :: rest => (some .strip, rest)
  | cs => (none, cs)

/-- The digit that tells how far a block is indented, if it is at the front; zero is no
indentation. -/
def width? : List Char → Option (Option Nat × List Char)
  | c :: rest =>
    if c == '0' then none else if c.isDigit then some (some (c.toNat - 48), rest)
    else some (none, c :: rest)
  | [] => some (none, [])

/-- The marks after the sign of a block scalar, in either order, with the characters after them. -/
def blockHeader? (cs : List Char) : Option (Chomp × Option Nat × List Char) := do
  match chomp? cs with
  | (some chomp, rest) =>
    let (width, rest) ← width? rest
    return (chomp, width, rest)
  | (none, rest) =>
    let (width, rest) ← width? rest
    match width, chomp? rest with
    | some n, (chomp, rest) => return (chomp.getD .clip, some n, rest)
    | none, _ => return (.clip, none, rest)

/-- Passes over line ends and over the blanks of an indentation, which is not known yet if it is 0.
Gives the line ends, the greatest column, and the place of the next character. -/
def blockBreaks (indent : Nat) (breaks : List Char) (widest column : Nat) :
    List Char → Option (List Char × Nat × Nat × List Char)
  | [] => some (breaks, max widest column, column, [])
  | c :: rest =>
    let within := indent == 0 || column < indent
    if c == ' ' && within then blockBreaks indent breaks widest (column + 1) rest
    else if c == '\t' && within then none
    else if isBreak c then blockBreaks indent (c :: breaks) (max widest column) 0 rest
    else some (breaks, max widest column, column, c :: rest)

/-- The lines of a block scalar.  `lead` is the end of the line before, `trail` are the ends of the
empty lines since, and `blank` tells whether the line before starts with a blank.  In a folded
scalar one line end between two lines that do not start with a blank becomes a blank. -/
def blockLines (literal : Bool) (indent : Nat) :
    Nat → List Char → List Char → List Char → Bool → Nat → List Char →
      Option (List Char × List Char × List Char × List Char)
  | 0, acc, lead, trail, _, _, rest => some (acc, lead, trail, rest)
  | fuel + 1, acc, lead, trail, blank, column, rest =>
    if column != indent || rest.isEmpty then some (acc, lead, trail, rest)
    else do
      let here := rest.head?.any isSpace
      let folds := !literal && !blank && !here && lead == ['\n']
      let between := if folds then (if trail.isEmpty then [' '] else trail) else trail ++ lead
      let line := rest.takeWhile (!isBreak ·)
      let (lead, column, after) := match rest.drop line.length with
        | b :: after => ([b], 0, after)
        | [] => ([], column + line.length, [])
      let (trail, _, column, after) ← blockBreaks indent [] 0 column after
      blockLines literal indent fuel (line.reverse ++ between ++ acc) lead trail here column after

/-- The text of a block scalar below a collection at column `parent`, from the line after its sign;
`width` is the indentation that the sign asks for. -/
def blockChars (literal : Bool) (chomp : Chomp) (width : Option Nat) (parent : Int)
    (cs : List Char) : Option (List Char × List Char) := do
  let asked := match width with
    | some n => (max parent 0).toNat + n
    | none => 0
  let (trail, widest, column, rest) ← blockBreaks asked [] 0 0 cs
  let indent := if asked = 0 then max (max widest (parent + 1).toNat) 1 else asked
  let (acc, lead, trail, rest) ←
    blockLines literal indent (rest.length + 1) [] [] trail false column rest
  match chomp with
  | .strip => return (acc, rest)
  | .clip => return (lead ++ acc, rest)
  | .keep => return (trail ++ lead ++ acc, rest)

end Ripple.Settings.Yaml
