/-!
# Ripple.Text.Padding

Texts of a least width.  The width is counted in characters.
-/

namespace Ripple.Text

/-- Blanks after the text, up to a width. -/
def padRight (width : Nat) (s : String) : String :=
  s ++ String.ofList (List.replicate (width - s.length) ' ')

/-- Blanks, or another character, in front of the text, up to a width. -/
def padLeft (width : Nat) (s : String) (fill : Char) : String :=
  String.ofList (List.replicate (width - s.length) fill) ++ s

end Ripple.Text
