/-!
# Ripple.Source.Token

Tokens of source code, and parsers over lists of them.  A token remembers the blanks and comments
in front of it, so that the source text of any run of tokens can be put together again.
-/

namespace Ripple.Source

/-- The classes of token. -/
inductive TokenKind where
  /-- A name or a keyword. -/
  | word
  | number
  /-- A string literal, with its quotes. -/
  | text
  /-- A character literal, with its quotes. -/
  | character
  /-- An operator or a delimiter. -/
  | mark
  deriving DecidableEq, Repr

/-- A piece of source code. -/
structure Token where
  kind : TokenKind
  text : String
  /-- The source between the token before and this one. -/
  gap : String
  /-- The line on which the token starts; the first is 1. -/
  line : Nat
  /-- The position among the tokens of the source. -/
  index : Nat
  deriving DecidableEq, Repr

namespace Token

/-- Whether the token is a given keyword, operator or delimiter. -/
def is (t : Token) (s : String) : Bool :=
  (t.kind == .word || t.kind == .mark) && t.text == s

/-- The source of a run of tokens, without what stands in front of the first. -/
def source : List Token → String
  | [] => ""
  | t :: ts => ts.foldl (fun s u => s ++ u.gap ++ u.text) t.text

end Token

/-- The delimiter that opens a block. -/
def leftBrace : String := "\x7b"

/-- The delimiter that closes a block. -/
def rightBrace : String := "\x7d"

/-! ## scanning -/

/-- A source without the byte order mark that may stand in front. -/
def withoutByteOrderMark : List Char → List Char
  | '\uFEFF' :: cs => cs
  | cs => cs

/-- How many lines end in a run of characters. -/
def newlines (cs : List Char) : Nat := cs.count '\n'

/-- Splits after the first `*/`, or at the end. -/
def throughStarSlash : List Char → List Char × List Char
  | [] => ([], [])
  | '*' :: '/' :: rest => (['*', '/'], rest)
  | c :: rest => let (a, b) := throughStarSlash rest; (c :: a, b)

/-- Splits after the first `quote` that no backslash escapes, or at the end. -/
def throughQuote (quote : Char) : List Char → List Char × List Char
  | [] => ([], [])
  | '\\' :: c :: rest => let (a, b) := throughQuote quote rest; ('\\' :: c :: a, b)
  | c :: rest =>
    if c == quote then ([c], rest) else let (a, b) := throughQuote quote rest; (c :: a, b)

/-- Whether a character can start a name; every character beyond ASCII can. -/
def startsName (c : Char) : Bool := c.isAlpha || c == '_' || c.toNat ≥ 0x80

/-- Whether a character can stand inside a name. -/
def continuesName (c : Char) : Bool := startsName c || c.isDigit

/-- The first of some operators that stands at the front. -/
def frontMark? (marks : List String) (cs : List Char) : Option String :=
  marks.find? fun m => m.toList.isPrefixOf cs

/-! ## parsers -/

/-- A parser takes tokens off the front, or fails. -/
abbrev Parse := StateT (List Token) Option

namespace Parse

/-- The next token, which stays. -/
def peek : Parse (Option Token) := do return (← get).head?

/-- The token after a number of others, which all stay. -/
def ahead (n : Nat) : Parse (Option Token) := do return (← get)[n]?

/-- Whether the next token is a given keyword, operator or delimiter. -/
def sees (s : String) : Parse Bool := do return (← peek).any (·.is s)

/-- Whether the token after a number of others is a given one. -/
def seesAhead (n : Nat) (s : String) : Parse Bool := do return (← ahead n).any (·.is s)

/-- Takes the next token. -/
def next : Parse Token := do
  match ← get with
  | [] => failure
  | t :: ts => set ts; return t

/-- Takes a given keyword, operator or delimiter. -/
def eat (s : String) : Parse Token := do
  let t ← next
  if t.is s then return t else failure

/-- Takes a given token if it is the next one. -/
def eats (s : String) : Parse Bool := do
  if ← sees s then discard next; return true else return false

/-- Fails unless a condition holds. -/
def check (b : Bool) : Parse Unit := if b then pure () else failure

/-- The result of a parser, or nothing if it fails. -/
def attempt (p : Parse α) : Parse (Option α) := some <$> p <|> pure none

/-- As many results of a parser as there are, up to a bound. -/
def many (p : Parse α) : Nat → Parse (List α)
  | 0 => pure []
  | n + 1 => do
    match ← attempt p with
    | some a => return a :: (← many p n)
    | none => return []

/-- One or more results with a delimiter between them. -/
def sepBy1 (p : Parse α) (sep : String) (bound : Nat) : Parse (List α) := do
  let first ← p
  return first :: (← many (do discard (eat sep); p) bound)

/-- The result of a parser with the tokens it took. -/
def withTokens (p : Parse α) : Parse (α × List Token) := do
  let before ← get
  let a ← p
  let count := match before, ← get with
    | b :: _, t :: _ => t.index - b.index
    | bs, _ => bs.length
  return (a, before.take count)

end Parse

end Ripple.Source
