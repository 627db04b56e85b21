import Mathlib.Data.List.Sort

/-!
# Ripple.Proofs.Arranged

Lists in strictly increasing order of a key.  Sorting by a key that tells the elements apart
arranges a list (`Arranged.mergeSort`), and two arranged lists with the same elements are the same
list (`Arranged.ext`), so that dropping elements and sorting commute (`Arranged.mergeSort_filter`).
-/

namespace Ripple

/-- A list is in strictly increasing order of a key. -/
def Arranged [LT κ] (key : α → κ) (l : List α) : Prop :=
  l.Pairwise fun a b => key a < key b

namespace Arranged

variable {α κ : Type} [LinearOrder κ] {key : α → κ} {l l' : List α}

/-- A list sorted by keys of which none occurs twice. -/
theorem mergeSort {le : α → α → Bool} (hle : ∀ a b, le a b = true ↔ key a ≤ key b)
    (hl : (l.map key).Nodup) : Arranged key (l.mergeSort le) := by
  have hsorted : (l.mergeSort le).Pairwise (fun a b => le a b = true) := by
    apply List.pairwise_mergeSort
    · intro a b c hab hbc
      exact (hle a c).mpr (((hle a b).mp hab).trans ((hle b c).mp hbc))
    · intro a b
      simpa [hle] using le_total (key a) (key b)
  have hnodup : ((l.mergeSort le).map key).Nodup :=
    ((List.mergeSort_perm l le).map key).nodup_iff.mpr hl
  refine (hsorted.and (List.pairwise_map.mp hnodup)).imp ?_
  rintro a b ⟨hab, hne⟩
  exact ((hle a b).mp hab).lt_of_ne hne

/-- Keys tell the elements apart. -/
theorem key_injective (h : Arranged key l) {a b : α} (ha : a ∈ l) (hb : b ∈ l)
    (hab : key a = key b) : a = b := by
  have hnodup : (l.map key).Nodup := List.pairwise_map.mpr (h.imp fun hlt => hlt.ne)
  exact List.inj_on_of_nodup_map hnodup ha hb hab

theorem ext (h : Arranged key l) (h' : Arranged key l') (hl : l ⊆ l') (hl' : l' ⊆ l) : l = l' := by
  have : Std.Antisymm fun a b => key a < key b := ⟨fun a b hab hba => absurd hba hab.asymm⟩
  have : Std.Irrefl fun a b => key a < key b := ⟨fun a => lt_irrefl (key a)⟩
  exact List.Subset.antisymm_of_pairwise h h' hl hl'

/-- Elements may be dropped before or after sorting. -/
theorem mergeSort_filter {le : α → α → Bool} (hle : ∀ a b, le a b = true ↔ key a ≤ key b)
    (hl : (l.map key).Nodup) (p : α → Bool) :
    (l.filter p).mergeSort le = (l.mergeSort le).filter p := by
  have hfilter : ((l.filter p).map key).Nodup := hl.sublist (List.filter_sublist.map key)
  refine (Arranged.mergeSort hle hfilter).ext ((Arranged.mergeSort hle hl).filter p) ?_ ?_
  · intro a
    simp
  · intro a
    simp

/-- Two lists whose elements are within each other, where an element is within no other one of its
key. -/
theorem eq_of_within (h : Arranged key l) (h' : Arranged key l') {within : α → α → Prop}
    (hkey : ∀ a b, within a b → key b = key a)
    (hanti : ∀ a ∈ l, ∀ b ∈ l', within a b → within b a → a = b)
    (hl : ∀ a ∈ l, ∃ b ∈ l', within a b) (hl' : ∀ b ∈ l', ∃ a ∈ l, within b a) : l = l' := by
  refine h.ext h' ?_ ?_
  · intro a ha
    obtain ⟨b, hb, hab⟩ := hl a ha
    obtain ⟨c, hc, hbc⟩ := hl' b hb
    obtain rfl := h.key_injective hc ha ((hkey b c hbc).trans (hkey a b hab))
    rwa [hanti c ha b hb hab hbc]
  · intro b hb
    obtain ⟨a, ha, hba⟩ := hl' b hb
    obtain ⟨c, hc, hac⟩ := hl a ha
    obtain rfl := h'.key_injective hc hb ((hkey a c hac).trans (hkey b a hba))
    rwa [← hanti a ha c hc hac hba]

end Arranged

end Ripple
