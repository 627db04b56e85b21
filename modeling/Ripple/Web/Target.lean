import Ripple.Text.Hexadecimal
import Ripple.Text.Raw
import Ripple.Text.Search

/-!
# Ripple.Web.Target

What a web request is aimed at: a path and the texts that follow it.  In both, a percent sign and
two hexadecimal digits stand for a byte, so what is read are raw texts; in the texts that follow, a
plus sign stands for a blank.
-/

namespace Ripple.Web

/-- The bytes that an escaped text stands for, unless an escape is malformed. -/
def unescapeBytes? : List Char → Option (List UInt8)
  | [] => some []
  | '%' :: a :: b :: rest => do
    let high ← Text.hexValue? a
    let low ← Text.hexValue? b
    return UInt8.ofNat (16 * high + low) :: (← unescapeBytes? rest)
  | '%' :: _ => none
  | c :: rest => do return c.toString.toUTF8.toList ++ (← unescapeBytes? rest)

/-- The text that an escaped text stands for, unless an escape is malformed. -/
def unescape? (cs : List Char) : Option RawText := (unescapeBytes? cs).map RawText.mk

/-- The text that an escaped text with plus signs for blanks stands for. -/
def unescapeText? (s : String) : Option RawText :=
  unescape? (s.toList.map fun c => if c = '+' then ' ' else c)

/-- What a request is aimed at. -/
structure Target where
  /-- What stands in front of the path: nothing, or the scheme and the host. -/
  origin : String
  path : RawText
  /-- What follows the path: a question mark and the texts, as they were written. -/
  rest : String
  deriving DecidableEq, Repr

namespace Target

/-- The scheme at the front, with what follows its colon. -/
def scheme? (s : String) : Option (String × String) :=
  let inScheme (c : Char) : Bool := c.isAlphanum || c == '+' || c == '-' || c == '.'
  let name := s.toList.takeWhile inScheme
  match s.toList.drop name.length with
  | ':' :: rest =>
    if name.head?.any Char.isAlpha then
      some (String.ofList (name.map Char.toLower), String.ofList rest)
    else none
  | _ => none

/-- Scheme and host of a target, with the path.  A scheme without a slash after it has no path. -/
def splitOrigin (s : String) : String × String :=
  match scheme? s with
  | none => ("", s)
  | some (scheme, rest) =>
    match rest.toList with
    | '/' :: '/' :: host =>
      let host := host.takeWhile (· != '/')
      (scheme ++ "://" ++ String.ofList host, String.ofList (rest.toList.drop (2 + host.length)))
    | '/' :: _ => (scheme ++ ":", rest)
    | _ => (scheme ++ ":" ++ rest, "")

/-- Reads a target.  A path with a malformed escape stands for itself. -/
def ofString (s : String) : Target :=
  let front := Text.upTo '?' s
  let (origin, path) := splitOrigin front
  ⟨origin, (unescape? path.toList).getD (.ofText path), String.ofList (s.toList.drop front.length)⟩

/-- Name and text of a pair.  A pair that is malformed or holds a semicolon counts for nothing. -/
def pair? (s : String) : Option (RawText × RawText) :=
  if s.isEmpty || s.toList.contains ';' then none
  else do
    let name := Text.upTo '=' s
    let text := String.ofList (s.toList.drop (name.length + 1))
    return (← unescapeText? name, ← unescapeText? text)

/-- The named texts, in order. -/
def pairs (t : Target) : List (RawText × RawText) :=
  (Text.splitOn '&' (String.ofList (t.rest.toList.drop 1))).filterMap pair?

/-- The first text under a name, or the empty text. -/
def text (t : Target) (name : String) : RawText := (t.pairs.lookup (.ofText name)).getD ⟨[]⟩

end Target

end Ripple.Web
