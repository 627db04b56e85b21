import Ripple.Text.Search
import Mathlib.Data.List.Basic
import Mathlib.Data.List.Infix

/-!
# Ripple.Proofs.Text.Search

Searches in texts and cuts at a character, said with lists of characters: what it is to begin with,
to end in and to contain a text, and that cutting at a separator undoes joining with it
(`splitOn_append`, `splitOn_join`).
-/

namespace Ripple.Text

/-! ## parts of a text -/

theorem startsWithChars_takeWhile (p : Char → Bool) (cs : List Char) :
    startsWithChars (cs.takeWhile p) cs = true := by
  induction cs with
  | nil => rfl
  | cons c cs ih =>
      rw [List.takeWhile_cons]
      split
      · simp [startsWithChars, ih]
      · rfl

theorem startsWithChars_iff {p cs : List Char} : startsWithChars p cs = true ↔ p <+: cs := by
  induction p generalizing cs with
  | nil => simp [startsWithChars]
  | cons a p ih =>
      cases cs with
      | nil => simp [startsWithChars]
      | cons c cs => simp [startsWithChars, ih, List.cons_prefix_cons]

/-- Containment of texts is containment of one list of characters in the other. -/
theorem contains_iff {s part : String} :
    contains s part = true ↔ part.toList <:+: s.toList := by
  rw [contains]
  induction s.toList with
  | nil => simp [containsChars]
  | cons c cs ih =>
      rw [containsChars, Bool.or_eq_true, startsWithChars_iff, ih, List.infix_cons_iff]

/-- A text shows what stands before a character in it. -/
theorem contains_upTo (stop : Char) (s : String) : contains s (upTo stop s) = true := by
  rw [contains, upTo, String.toList_ofList]
  have hstarts := startsWithChars_takeWhile (· != stop) s.toList
  cases hs : s.toList with
  | nil => rfl
  | cons c cs =>
      rw [hs] at hstarts
      simp [containsChars, hstarts]

theorem hasPrefix_iff {s part : String} : hasPrefix s part = true ↔ part.toList <+: s.toList :=
  startsWithChars_iff

/-! ## cuts at a character -/

section
variable {α : Type} [DecidableEq α]

theorem splitLetters_ne_nil (sep : α) (cs : List α) : splitLetters sep cs ≠ [] := by
  cases cs with
  | nil => simp [splitLetters]
  | cons c cs =>
      rw [splitLetters]
      split
      · simp
      · split <;> simp

theorem splitLetters_append (sep : α) (a b : List α) :
    splitLetters sep (a ++ sep :: b) = splitLetters sep a ++ splitLetters sep b := by
  induction a with
  | nil => simp [splitLetters]
  | cons c a ih =>
      rw [List.cons_append, splitLetters, splitLetters, ih]
      by_cases hc : c = sep
      · simp [hc]
      · rw [if_neg hc, if_neg hc]
        cases hsplit : splitLetters sep a with
        | nil => exact absurd hsplit (splitLetters_ne_nil sep a)
        | cons w ws => rfl

theorem splitLetters_of_not_mem {sep : α} {w : List α} (h : sep ∉ w) :
    splitLetters sep w = [w] := by
  induction w with
  | nil => rfl
  | cons c w ih =>
      obtain ⟨hc, hw⟩ := not_or.mp (fun hmem => h (List.mem_cons.mpr hmem))
      rw [splitLetters, ih hw, if_neg (Ne.symm hc)]

/-- The pieces of a cut do not hold the separator. -/
theorem not_mem_of_mem_splitLetters {sep : α} {w cs : List α} (h : w ∈ splitLetters sep cs) :
    sep ∉ w := by
  induction cs generalizing w with
  | nil => simp_all [splitLetters]
  | cons c cs ih =>
      rw [splitLetters] at h
      by_cases hc : c = sep
      · rw [if_pos hc] at h
        rcases List.mem_cons.mp h with rfl | h
        · exact List.not_mem_nil
        · exact ih h
      · rw [if_neg hc] at h
        cases hsplit : splitLetters sep cs with
        | nil => exact absurd hsplit (splitLetters_ne_nil sep cs)
        | cons v vs =>
            rw [hsplit] at h ih
            rcases List.mem_cons.mp h with rfl | h
            · intro hmem
              rcases List.mem_cons.mp hmem with rfl | hmem
              · exact hc rfl
              · exact ih List.mem_cons_self hmem
            · exact ih (List.mem_cons_of_mem v h)

end

theorem splitOn_append (sep : Char) (a b : String) :
    splitOn sep (a ++ sep.toString ++ b) = splitOn sep a ++ splitOn sep b := by
  simp [splitOn, ← List.map_append, ← splitLetters_append]

theorem splitOn_of_not_mem {sep : Char} {s : String} (h : sep ∉ s.toList) :
    splitOn sep s = [s] := by
  simp [splitOn, splitLetters_of_not_mem h]

/-- What stands before a separator is found again. -/
theorem upTo_append {stop : Char} {a : String} (h : stop ∉ a.toList) (b : String) :
    upTo stop (a ++ stop.toString ++ b) = a := by
  have hall : ∀ c ∈ a.toList, (c != stop) = true := fun c hc => by
    rw [bne_iff_ne]
    rintro rfl
    exact h hc
  rw [upTo]
  simp [List.takeWhile_append_of_pos hall]

theorem drop_toList_append (a b : String) : (a ++ b).toList.drop a.length = b.toList := by
  rw [String.toList_append, ← String.length_toList, List.drop_left]

/-- Texts that are joined with a separator that none of them holds are found again. -/
theorem splitOn_join {sep : Char} {ws : List String} (hne : ws ≠ [])
    (h : ∀ w ∈ ws, sep ∉ w.toList) : splitOn sep (join sep.toString ws) = ws := by
  induction ws with
  | nil => exact absurd rfl hne
  | cons w ws ih =>
      obtain ⟨hw, hws⟩ := List.forall_mem_cons.mp h
      cases ws with
      | nil => exact splitOn_of_not_mem hw
      | cons v vs =>
          rw [join, splitOn_append, splitOn_of_not_mem hw, ih (by simp) hws, List.singleton_append]

end Ripple.Text
