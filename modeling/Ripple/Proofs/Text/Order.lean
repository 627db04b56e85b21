import Ripple.Text.Quoted
import Mathlib.Data.String.Basic

/-!
# Ripple.Proofs.Text.Order

The order of texts is the order of their bytes: UTF-8 keeps the order of characters, so comparing
texts character by character and byte by byte is the same (`bytes_lt`).
-/

namespace Ripple.Text

theorem bytes_eq (s : String) : bytes s = s.toList.flatMap String.utf8EncodeChar := by
  rw [bytes, String.toUTF8_eq_toByteArray, ← String.utf8Encode_toList, List.utf8Encode,
    List.data_toByteArray, List.toList_toArray]

/-- The first group of six bits in which two numbers differ decides. -/
theorem sixBits_lt {v w : Nat} (h : v < w) :
    v / 262144 < w / 262144 ∨ v / 262144 = w / 262144 ∧
      (v / 4096 % 64 < w / 4096 % 64 ∨ v / 4096 % 64 = w / 4096 % 64 ∧
        (v / 64 % 64 < w / 64 % 64 ∨ v / 64 % 64 = w / 64 % 64 ∧ v % 64 < w % 64)) := by
  have digit {a b : Nat} (h : a < b) : a / 64 < b / 64 ∨ a / 64 = b / 64 ∧ a % 64 < b % 64 := by
    omega
  have hdiv (a : Nat) : a / 4096 = a / 64 / 64 ∧ a / 262144 = a / 64 / 64 / 64 := by omega
  rw [(hdiv v).1, (hdiv v).2, (hdiv w).1, (hdiv w).2]
  obtain hlt | ⟨heq, hlow⟩ := digit h
  · obtain hlt | ⟨heq, hmiddle⟩ := digit hlt
    · obtain hlt | ⟨heq, hhigh⟩ := digit hlt
      · exact .inl hlt
      · exact .inr ⟨heq, .inl hhigh⟩
    · exact .inr ⟨by rw [heq], .inr ⟨by rw [heq], .inl hmiddle⟩⟩
  · exact .inr ⟨by rw [heq], .inr ⟨by rw [heq], .inr ⟨by rw [heq], hlow⟩⟩⟩

/-- Whatever follows, a smaller character comes first. -/
theorem utf8EncodeChar_lt {c d : Char} (h : c < d) (x y : List UInt8) :
    String.utf8EncodeChar c ++ x < String.utf8EncodeChar d ++ y := by
  have hlt : c.val.toNat < d.val.toNat := h
  have hd : d.val.toNat < 0x110000 := by
    have hvalid := d.valid
    simp only [UInt32.isValidChar, Nat.isValidChar] at hvalid
    omega
  simp only [String.utf8EncodeChar]
  generalize c.val.toNat = v at *
  generalize d.val.toNat = w at *
  have hbits := sixBits_lt hlt
  have hv : v / 262144 % 8 = v / 262144 := by omega
  have hw : w / 262144 % 8 = w / 262144 := by omega
  have hbyte {n : Nat} (hn : n < 256) : (UInt8.ofNat n).toNat = n := UInt8.toNat_ofNat_of_lt' hn
  split_ifs <;>
    simp (disch := omega) only [List.cons_append, List.nil_append, List.cons_lt_cons_iff,
      UInt8.lt_iff_toNat_lt, ← UInt8.toNat_inj, hbyte, hv, hw] <;> omega

/-- Smaller texts have smaller bytes. -/
theorem bytes_lt {s t : String} (h : s < t) : bytes s < bytes t := by
  rw [String.lt_iff_toList_lt] at h
  rw [bytes_eq, bytes_eq]
  generalize s.toList = cs at *
  generalize t.toList = ds at *
  induction h with
  | @nil d ds =>
      have hne : String.utf8EncodeChar d ≠ [] := by simp
      obtain ⟨b, bs, hbs⟩ := List.exists_cons_of_ne_nil hne
      simp [hbs]
  | rel h => exact utf8EncodeChar_lt h _ _
  | cons _ ih => exact List.append_left_lt ih

end Ripple.Text
