import Ripple.Text.Raw

/-!
# Ripple.Text.Spelling

What names and paths are written in.  A program holds them as texts, whose letters are characters; a
file system holds them as raw texts, whose letters are bytes.  In both, the ASCII characters are
letters, and that is all that paths need.
-/

namespace Ripple

/-- A type of texts with letters of some kind. -/
class Spelling (τ : Type) (α : outParam Type) where
  letters : τ → List α
  ofLetters : List α → τ
  letters_ofLetters : ∀ ls, letters (ofLetters ls) = ls
  ofLetters_letters : ∀ s, ofLetters (letters s) = s
  /-- The letter for an ASCII character. -/
  letter : Char → α
  letter_slash_ne : letter '/' ≠ letter '.'
  /-- The bytes by which texts are ordered and measured. -/
  bytes : τ → List UInt8
  /-- How a text is shown in a message. -/
  shown : τ → String

instance : Spelling String Char where
  letters := String.toList
  ofLetters := String.ofList
  letters_ofLetters _ := String.toList_ofList
  ofLetters_letters _ := String.ofList_toList
  letter := id
  letter_slash_ne := by decide
  bytes := Text.bytes
  shown := id

instance : Spelling RawText UInt8 where
  letters := RawText.bytes
  ofLetters := RawText.mk
  letters_ofLetters _ := rfl
  ofLetters_letters _ := rfl
  letter c := c.toNat.toUInt8
  letter_slash_ne := by decide
  bytes := RawText.bytes
  shown := RawText.shown

namespace Spelling

variable {τ α : Type} [Spelling τ α]

/-- The text with given ASCII characters. -/
def spell (s : String) : τ := ofLetters (s.toList.map (letter τ))

/-- Whether a text has no letters. -/
def isEmpty (s : τ) : Bool := (letters s).isEmpty

attribute [simp] letters_ofLetters ofLetters_letters

@[simp] theorem letters_spell (s : String) : letters (spell s : τ) = s.toList.map (letter τ) :=
  letters_ofLetters _

theorem letters_inj {s t : τ} : letters s = letters t ↔ s = t := by
  refine ⟨fun h => ?_, congrArg letters⟩
  rw [← ofLetters_letters s, h, ofLetters_letters]

end Spelling

end Ripple
