/-!
# Ripple.Text.Blank

White space, as the Unicode property `White_Space` defines it.  Twenty-five code points have it;
zero-width characters (U+200B, U+FEFF, U+180E) and the ASCII separators U+001C … U+001F do not.

* `trim` drops blanks at both ends, `isBlank` asks whether nothing is left;
* `compact` drops every blank.
-/

namespace Ripple.Text

/-- The code points with the property `White_Space`. -/
def isBlankChar (c : Char) : Bool :=
  let n := c.toNat
  (0x09 ≤ n && n ≤ 0x0d) || n == 0x20 || n == 0x85 || n == 0xa0 || n == 0x1680 ||
    (0x2000 ≤ n && n ≤ 0x200a) || n == 0x2028 || n == 0x2029 || n == 0x202f || n == 0x205f ||
    n == 0x3000

/-- The text without the blanks at its two ends. -/
def trim (s : String) : String :=
  String.ofList (((s.toList.dropWhile isBlankChar).reverse.dropWhile isBlankChar).reverse)

/-- A text is blank when all its characters are, so when `trim` leaves nothing of it. -/
def isBlank (s : String) : Bool :=
  s.toList.all isBlankChar

/-- The text without any blank: `Map<String, User>` becomes `Map<String,User>`. -/
def compact (s : String) : String :=
  String.ofList (s.toList.filter (fun c => !isBlankChar c))

end Ripple.Text
