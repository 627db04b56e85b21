import Ripple.Json.Reader
import Mathlib.Data.List.Basic

/-!
# Ripple.Proofs.Json.RoundTrip

The characters of a JSON string read back one by one, with the rest of the text left open
(`stringBody_escapeChar`).
-/

namespace Ripple.Json

/-! ## hexadecimal escapes -/

/-- Four digits are enough for a number below 65536. -/
theorem hex4?_hex {n : Nat} (hn : n < 0x10000) {a b c d : Char} (h : Text.hex 4 n = [a, b, c, d]) :
    hex4? a b c d = some n := by
  simp only [Text.hex, List.nil_append, List.cons_append, List.cons.injEq, and_true] at h
  obtain ⟨rfl, rfl, rfl, rfl⟩ := h
  simp only [hex4?, Text.hexValue?_hexDigit _ (Nat.mod_lt _ (by decide : 0 < 16)),
    Option.bind_eq_bind, Option.bind_some, Option.pure_def, Option.some.injEq]
  omega

/-- An escape by number reads as the character with that number. -/
theorem stringBody_hex {c : Char} (hc : c.toNat < 0xd800) (acc rest : List Char) :
    stringBody none acc ('\\' :: 'u' :: Text.hex 4 c.toNat ++ rest) =
      stringBody none (c :: acc) rest := by
  obtain ⟨x, y, z, w, hdigits⟩ : ∃ x y z w, Text.hex 4 c.toNat = [x, y, z, w] :=
    ⟨_, _, _, _, rfl⟩
  rw [hdigits]
  simp only [List.cons_append, List.nil_append]
  rw [stringBody, hex4?_hex (by omega) hdigits]
  simp only
  rw [if_neg (by omega), if_neg (by omega), Char.ofNat_toNat]
  rfl

/-! ## strings -/

/-- A character that stands for itself. -/
theorem stringBody_plain {c : Char} (hquote : c ≠ '"') (hslash : c ≠ '\\') (hc : 0x20 ≤ c.toNat)
    (acc rest : List Char) : stringBody none acc (c :: rest) = stringBody none (c :: acc) rest := by
  have hok : ¬ ((decide (c.toNat < 0x20) || c == '\\') = true) := by simp [hslash, hc]
  rw [stringBody.eq_def]
  split
  · contradiction
  · next heq => exact absurd (List.cons.inj heq).1 hquote
  · next heq => exact absurd (List.cons.inj heq).1 hslash
  · next heq => exact absurd (List.cons.inj heq).1 hslash
  · next heq =>
      obtain ⟨rfl, rfl⟩ := List.cons.inj heq
      rw [if_neg hok]
      rfl

/-- An escape by letter. -/
theorem stringBody_letter {e c : Char} (h : letterEscape? e = some c) (acc rest : List Char) :
    stringBody none acc ('\\' :: e :: rest) = stringBody none (c :: acc) rest := by
  rw [stringBody.eq_def]
  split
  · contradiction
  · next heq => exact absurd (List.cons.inj heq).1 (by decide)
  · next heq =>
      obtain ⟨-, heq⟩ := List.cons.inj heq
      rw [(List.cons.inj heq).1] at h
      contradiction
  · next heq =>
      obtain ⟨-, heq⟩ := List.cons.inj heq
      obtain ⟨rfl, rfl⟩ := List.cons.inj heq
      rw [h]
      rfl
  · next hletter heq =>
      obtain ⟨rfl, rfl⟩ := List.cons.inj heq
      exact absurd rfl (hletter e rest rfl)

/-- **A character reads back** as it was written. -/
theorem stringBody_escapeChar (esc : Escapes) (c : Char) (acc rest : List Char) :
    stringBody none acc (escapeChar esc c ++ rest) = stringBody none (c :: acc) rest := by
  have hchar : ∀ d, c.toNat = d.toNat → c = d := fun d h => Char.toNat_inj.mp h
  unfold escapeChar
  simp only [beq_iff_eq, Bool.and_eq_true, Bool.or_eq_true, decide_eq_true_eq]
  by_cases hquote : c = '"'
  · rw [if_pos hquote, hquote]
    exact stringBody_letter rfl acc rest
  rw [if_neg hquote]
  by_cases hslash : c = '\\'
  · rw [if_pos hslash, hslash]
    exact stringBody_letter rfl acc rest
  rw [if_neg hslash]
  by_cases hnewline : c = '\n'
  · rw [if_pos hnewline, hnewline]
    exact stringBody_letter rfl acc rest
  rw [if_neg hnewline]
  by_cases hreturn : c = '\r'
  · rw [if_pos hreturn, hreturn]
    exact stringBody_letter rfl acc rest
  rw [if_neg hreturn]
  by_cases htab : c = '\t'
  · rw [if_pos htab, htab]
    exact stringBody_letter rfl acc rest
  rw [if_neg htab]
  by_cases hback : c.toNat = 8 ∧ esc.letters = true
  · rw [if_pos hback, hchar '\x08' hback.1]
    exact stringBody_letter rfl acc rest
  rw [if_neg hback]
  by_cases hfeed : c.toNat = 12 ∧ esc.letters = true
  · rw [if_pos hfeed, hchar '\x0c' hfeed.1]
    exact stringBody_letter rfl acc rest
  rw [if_neg hfeed]
  by_cases hcontrol : (c.toNat < 0x20 ∨ c.toNat = 0x2028) ∨ c.toNat = 0x2029
  · rw [if_pos hcontrol]
    exact stringBody_hex (by omega) acc rest
  rw [if_neg hcontrol]
  by_cases hmarkup : esc.markup = true ∧ ((c = '<' ∨ c = '>') ∨ c = '&')
  · rw [if_pos hmarkup]
    refine stringBody_hex ?_ acc rest
    obtain ⟨-, (rfl | rfl) | rfl⟩ := hmarkup <;> decide
  rw [if_neg hmarkup]
  exact stringBody_plain hquote hslash (by omega) acc rest

end Ripple.Json
