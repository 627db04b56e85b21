/-!
# Ripple.Word

Sizes of machine words.
-/

namespace Ripple.Word

/-- How many words of 64 bits there are. -/
def count : Nat := 0x10000000000000000

/-- How many of them stand for negative numbers when one bit is a sign. -/
def half : Nat := 0x8000000000000000

end Ripple.Word
