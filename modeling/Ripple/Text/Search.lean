/-!
# Ripple.Text.Search

Substrings, cuts at a character and replacement, on lists of characters so that each is a plain
recursion.
-/

namespace Ripple.Text

/-- Whether `p` stands at the front of a list of characters. -/
def startsWithChars : List Char → List Char → Bool
  | [], _ => true
  | _ :: _, [] => false
  | p :: ps, c :: cs => p == c && startsWithChars ps cs

/-- Whether `p` stands somewhere in a list of characters. -/
def containsChars (p : List Char) : List Char → Bool
  | [] => p.isEmpty
  | c :: cs => startsWithChars p (c :: cs) || containsChars p cs

/-- Whether `part` is a substring of `s`; the empty text is a substring of every text. -/
def contains (s part : String) : Bool :=
  containsChars part.toList s.toList

/-- Whether `s` begins with `part`. -/
def hasPrefix (s part : String) : Bool :=
  startsWithChars part.toList s.toList

/-- Whether `s` ends with `part`. -/
def hasSuffix (s part : String) : Bool :=
  startsWithChars part.toList.reverse s.toList.reverse

/-- The characters before the first `stop`, or all of them. -/
def upTo (stop : Char) (s : String) : String :=
  String.ofList (s.toList.takeWhile (· != stop))

/-- The characters after the last `mark`, or all of them. -/
def afterLast (mark : Char) (s : String) : String :=
  String.ofList (s.toList.reverse.takeWhile (· != mark)).reverse

/-- Splits a list of letters at each `sep`; there is one piece more than there are separators. -/
def splitLetters {α : Type} [DecidableEq α] (sep : α) : List α → List (List α)
  | [] => [[]]
  | c :: cs =>
    if c = sep then [] :: splitLetters sep cs
    else
      match splitLetters sep cs with
      | [] => [[c]]
      | w :: ws => (c :: w) :: ws

/-- Splits a text at each `sep`. -/
def splitOn (sep : Char) (s : String) : List String :=
  (splitLetters sep s.toList).map String.ofList

/-- Joins texts with a separator between neighbours. -/
def join (sep : String) : List String → String
  | [] => ""
  | [a] => a
  | a :: b :: rest => a ++ sep ++ join sep (b :: rest)

end Ripple.Text
