import Mathlib.Data.List.Forall2
import Mathlib.Data.List.Nodup
import Mathlib.Data.List.Perm.Subperm
import Mathlib.Order.Basic

/-!
# Ripple.Proofs.Lists

Lists as such: what is distinct, what is left out and what is found in them.  Nothing here is about
graphs, sources or rows.
-/

namespace Ripple

variable {α β γ : Type}

/-! ## lists without repetitions -/

theorem nodup_eraseDups [BEq α] [LawfulBEq α] (l : List α) : l.eraseDups.Nodup := by
  induction hn : l.length using Nat.strongRecOn generalizing l with
  | ind n ih =>
      cases l with
      | nil => simp
      | cons a l =>
          rw [List.eraseDups_cons, List.nodup_cons]
          refine ⟨by simp [List.mem_eraseDups], ih _ ?_ _ rfl⟩
          have hle := List.length_filter_le (fun b => !b == a) l
          rw [← hn, List.length_cons]
          omega

/-- Results are distinct when each shows a key of its own. -/
theorem nodup_map_filterMap {f : α → Option β} {key : β → γ} (k : α → γ) {l : List α}
    (hkey : ∀ a ∈ l, ∀ b, f a = some b → key b = k a) (hl : (l.map k).Nodup) :
    ((l.filterMap f).map key).Nodup := by
  rw [List.Nodup, List.pairwise_map] at hl ⊢
  rw [List.pairwise_filterMap]
  refine hl.imp_of_mem ?_
  intro a a' ha ha' hne b hb b' hb'
  rw [hkey a ha b hb, hkey a' ha' b' hb']
  exact hne

/-- Lists put one after the other have no repetition when each shows a key of its own. -/
theorem nodup_flatMap_of_key {f : α → List β} (key : β → γ) (k : α → γ) {l : List α}
    (hkey : ∀ a ∈ l, ∀ b ∈ f a, key b = k a) (hl : (l.map k).Nodup)
    (hf : ∀ a ∈ l, (f a).Nodup) : (l.flatMap f).Nodup := by
  rw [List.Nodup, List.pairwise_map] at hl
  refine List.nodup_flatMap.mpr ⟨hf, hl.imp_of_mem ?_⟩
  intro a a' ha ha' hne b hb hb'
  exact hne ((hkey a ha b hb).symm.trans (hkey a' ha' b hb'))

/-- Where no value comes twice, an element differs from all before it. -/
theorem forall_ne_of_nodup_map {f : α → β} {done rest : List α} {a : α}
    (h : ((done ++ a :: rest).map f).Nodup) : ∀ x ∈ done, f x ≠ f a := by
  intro x hx
  rw [List.map_append, List.nodup_append] at h
  exact h.2.2 (f x) (List.mem_map_of_mem hx) (f a) (by simp)

/-- Where keys tell the elements apart, each is found by its own. -/
theorem find?_of_nodup_keys {κ : Type} [BEq κ] [LawfulBEq κ] {key : α → κ} {l : List α}
    (hl : (l.map key).Nodup) {a : α} (ha : a ∈ l) : l.find? (key · == key a) = some a := by
  have hsome : (l.find? (key · == key a)).isSome := List.find?_isSome.mpr ⟨a, ha, BEq.rfl⟩
  obtain ⟨b, hb⟩ := Option.isSome_iff_exists.mp hsome
  have hkey : key b = key a := by simpa using List.find?_some hb
  rw [hb, List.inj_on_of_nodup_map hl (List.mem_of_find?_eq_some hb) ha hkey]

/-- A list without repetitions that is part of another one is as long only if it has all of it. -/
theorem length_eq_iff_of_subset {l l' : List α} (hl : l.Nodup) (hl' : l'.Nodup)
    (h : l ⊆ l') : l.length = l'.length ↔ l' ⊆ l := by
  constructor
  · intro hlength
    exact ((hl.subperm h).perm_of_length_le (Nat.le_of_eq hlength.symm)).symm.subset
  · intro h'
    exact ((hl.subperm h).antisymm (hl'.subperm h')).length_eq

/-! ## what is left out -/

/-- Leaving some out gives the same up to order only if none is left out. -/
theorem map_filter_perm_iff {p : α → Bool} {f : α → β} {l : List α} :
    ((l.filter p).map f).Perm (l.map f) ↔ ∀ a ∈ l, p a = true := by
  constructor
  · intro h
    have hlength := h.length_eq
    rw [List.length_map, List.length_map] at hlength
    exact List.length_filter_eq_length_iff.mp hlength
  · intro h
    rw [List.filter_eq_self.mpr h]

/-- A partial map that only leaves out what another one has gives no longer list. -/
theorem length_filterMap_le {f g : α → Option β} {l : List α}
    (h : ∀ a ∈ l, g a = none ∨ g a = f a) : (l.filterMap g).length ≤ (l.filterMap f).length := by
  induction l with
  | nil => exact Nat.le_refl 0
  | cons a l ih =>
      have hrest := ih fun b hb => h b (List.mem_cons_of_mem a hb)
      obtain ha | ha := h a List.mem_cons_self
      · rw [List.filterMap_cons_none ha]
        exact Nat.le_trans hrest (List.Sublist.filterMap f (List.sublist_cons_self a l)).length_le
      · cases hf : f a with
        | none => rwa [List.filterMap_cons_none hf, List.filterMap_cons_none (ha.trans hf)]
        | some b =>
            rw [List.filterMap_cons_some hf, List.filterMap_cons_some (ha.trans hf)]
            exact Nat.succ_le_succ hrest

/-- It gives the same list exactly when it leaves out nothing. -/
theorem filterMap_eq_filterMap_iff {f g : α → Option β} {l : List α}
    (h : ∀ a ∈ l, g a = none ∨ g a = f a) :
    l.filterMap f = l.filterMap g ↔ ∀ a ∈ l, f a = g a := by
  refine ⟨?_, fun heq => List.filterMap_congr heq⟩
  intro heq
  induction l with
  | nil => simp
  | cons a l ih =>
      have hrest : ∀ b ∈ l, g b = none ∨ g b = f b := fun b hb => h b (List.mem_cons_of_mem a hb)
      have hle := length_filterMap_le hrest
      cases hf : f a with
      | none =>
          have hg : g a = none := (h a List.mem_cons_self).elim id (·.trans hf)
          rw [List.filterMap_cons_none hf, List.filterMap_cons_none hg] at heq
          exact List.forall_mem_cons.mpr ⟨hf.trans hg.symm, ih hrest heq⟩
      | some b =>
          rw [List.filterMap_cons_some hf] at heq
          obtain hg | hg := h a List.mem_cons_self
          · -- the first list would be longer than the second
            rw [List.filterMap_cons_none hg] at heq
            have hlength := congrArg List.length heq
            rw [List.length_cons] at hlength
            omega
          · rw [List.filterMap_cons_some (hg.trans hf), List.cons.injEq] at heq
            exact List.forall_mem_cons.mpr ⟨hg.symm, ih hrest heq.2⟩

/-- Where a property is lost along a list it does not come back, so that keeping what has it and
cutting commute. -/
theorem filter_take_of_pairwise {p : α → Bool} {l : List α}
    (h : l.Pairwise fun a b => p b = true → p a = true) (n : Nat) :
    (l.take n).filter p = (l.filter p).take n := by
  induction l generalizing n with
  | nil => simp
  | cons a l ih =>
      obtain ⟨hhead, htail⟩ := List.pairwise_cons.mp h
      cases n with
      | zero => rfl
      | succ n =>
          by_cases ha : p a = true
          · rw [List.take_succ_cons, List.filter_cons_of_pos ha, List.filter_cons_of_pos ha,
              List.take_succ_cons, ih htail]
          · have hnone : l.filter p = [] :=
              List.filter_eq_nil_iff.mpr fun b hb hp => ha (hhead b hb hp)
            rw [List.take_succ_cons, List.filter_cons_of_neg ha, List.filter_cons_of_neg ha,
              ih htail, hnone, List.take_nil, List.take_nil]

/-! ## order and places -/

theorem pairwise_zipIdx (l : List α) : l.zipIdx.Pairwise fun a b => a.2 < b.2 := by
  rw [← List.pairwise_map, List.zipIdx_map_snd]
  exact List.pairwise_lt_range'

/-- In a list that is sorted by a key, the first element with a property has the least key. -/
theorem le_of_find?_of_pairwise {κ : Type} [Preorder κ] {key : α → κ} {p : α → Bool} {l : List α}
    (hl : l.Pairwise fun a b => key a ≤ key b) {a : α} (h : l.find? p = some a) :
    ∀ b ∈ l, p b = true → key a ≤ key b := by
  obtain ⟨-, before, after, rfl, hbefore⟩ := List.find?_eq_some_iff_append.mp h
  intro b hb hp
  rcases List.mem_append.mp hb with hb | hb
  · exact absurd hp (by simpa using hbefore b hb)
  · rcases List.mem_cons.mp hb with rfl | hb
    · exact le_rfl
    · exact (List.pairwise_cons.mp (List.pairwise_append.mp hl).2.1).1 b hb

theorem getElem_of_split {xs : Array α} {before rest : List α} {x : α}
    (h : xs.toList = before ++ x :: rest) :
    ∃ hlt : before.length < xs.size, xs[before.length] = x := by
  have hlt : before.length < xs.size := by
    rw [← Array.length_toList, h]
    simp
  exact ⟨hlt, by simp [← Array.getElem_toList, h]⟩

theorem mem_of_split {xs : Array α} {before rest : List α} {x : α}
    (h : xs.toList = before ++ x :: rest) : x ∈ xs := by
  obtain ⟨hlt, rfl⟩ := getElem_of_split h
  exact Array.getElem_mem hlt

theorem exists_getElem?_of_forall₂ {R : α → β → Prop} {l : List α} {l' : List β}
    (h : List.Forall₂ R l l') {i : Nat} {a : α} (ha : l[i]? = some a) :
    ∃ b, l'[i]? = some b ∧ R a b := by
  induction h generalizing i with
  | nil => cases ha
  | cons hab _ ih =>
      cases i with
      | zero => cases ha; exact ⟨_, rfl, hab⟩
      | succ i => exact ih ha

theorem exists_of_forall₂_of_mem {R : α → β → Prop} {l : List α} {l' : List β}
    (h : List.Forall₂ R l l') {b : β} (hb : b ∈ l') : ∃ a ∈ l, R a b := by
  obtain ⟨i, hi⟩ := List.mem_iff_getElem?.mp hb
  obtain ⟨a, ha, hab⟩ := exists_getElem?_of_forall₂ h.flip hi
  exact ⟨a, List.mem_of_getElem? ha, hab⟩

/-! ## names and loops -/

/-- Under each of some names stands what belongs to it. -/
theorem lookup_map {κ : Type} [BEq κ] [LawfulBEq κ] {names : List κ} {name : κ} (h : name ∈ names)
    (text : κ → β) : (names.map fun n => (n, text n)).lookup name = some (text name) := by
  induction names with
  | nil => contradiction
  | cons n names ih =>
      rw [List.map_cons, List.lookup_cons]
      by_cases hn : name = n
      · simp [hn]
      · rw [beq_eq_false_iff_ne.mpr hn, ih ((List.mem_cons.mp h).resolve_left hn)]

/-- A loop whose turns all give an answer gives the list of them. -/
theorem mapM_eq_ok {ε : Type} {f : α → Except ε β} {h : α → β} {l : List α}
    (hf : ∀ a ∈ l, f a = .ok (h a)) : l.mapM f = .ok (l.map h) := by
  induction l with
  | nil => rfl
  | cons a l ih =>
      obtain ⟨ha, hl⟩ := List.forall_mem_cons.mp hf
      rw [List.mapM_cons, ha, ih hl]
      rfl

end Ripple
