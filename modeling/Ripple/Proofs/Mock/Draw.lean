import Ripple.Mock.Random
import Ripple.Proofs.Steps
import Mathlib.Data.List.Forall2

/-!
# Ripple.Proofs.Mock.Draw

Draws from any source of words.

`Gives x P` says of a computation that it answers, whatever the source gives and in whatever state
it is, and that its answers are as `P` says.  A choice below a positive bound gives a number below
it (`gives_below`), and a place inside a table gives what the table has there (`gives_entry`).
-/

namespace Ripple.Mock

variable {σ α β : Type}

/-- Whatever the source gives, a computation answers, and its answer is as said. -/
def Gives (x : Draw σ α) (P : α → Prop) : Prop :=
  ∀ st, ∃ a st', x.run st = (.ok a, st') ∧ P a

namespace Gives

variable {x : Draw σ α} {P Q : α → Prop}

theorem pure {a : α} (h : P a) : Gives (Pure.pure a : Draw σ α) P :=
  fun st => ⟨a, st, rfl, h⟩

theorem bind {f : α → Draw σ β} {R : β → Prop} (hx : Gives x P) (hf : ∀ a, P a → Gives (f a) R) :
    Gives (x >>= f) R := by
  intro st
  obtain ⟨a, st', hrun, ha⟩ := hx st
  obtain ⟨b, st'', hrun', hb⟩ := hf a ha st'
  refine ⟨b, st'', ?_, hb⟩
  rw [run_bind, hrun]
  exact hrun'

theorem imp (hx : Gives x P) (h : ∀ a, P a → Q a) : Gives x Q := by
  intro st
  obtain ⟨a, st', hrun, ha⟩ := hx st
  exact ⟨a, st', hrun, h a ha⟩

/-- A loop gives what its turns give. -/
theorem mapM {f : α → Draw σ β} {R : α → β → Prop} {l : List α}
    (hf : ∀ a ∈ l, Gives (f a) (R a)) : Gives (l.mapM f) (List.Forall₂ R l) := by
  induction l with
  | nil => exact .pure .nil
  | cons a l ih =>
      obtain ⟨ha, hl⟩ := List.forall_mem_cons.mp hf
      rw [List.mapM_cons]
      exact ha.bind fun b hb => (ih hl).bind fun bs hbs => .pure (.cons hb hbs)

end Gives

/-- A place inside a table. -/
theorem gives_entry {size place : Nat} (table : Nat → α) (h : place < size) :
    Gives (entry size table place : Draw σ α) (· = table place) := by
  rw [entry, if_pos h]
  exact .pure rfl

/-! ## choices -/

section

variable (s : Source σ)

theorem gives_word : Gives s.word fun _ => True :=
  fun _ => ⟨_, _, rfl, trivial⟩

theorem gives_chance (limit : Nat) : Gives (s.chance limit) fun _ => True :=
  (gives_word s).bind fun _ _ => .pure trivial

theorem gives_scaled {n : UInt64} (hn : n ≠ 0) : Gives (s.scaled n) (· < n.toNat) := by
  intro st
  have hpos : 0 < n.toNat := Nat.pos_of_ne_zero fun h => hn (UInt64.toNat_inj.mp h)
  have hscaled (w : UInt64) : (w.toNat * n.toNat) >>> 64 < n.toNat := by
    rw [Nat.shiftRight_eq_div_pow, Nat.div_lt_iff_lt_mul (Nat.two_pow_pos 64), Nat.mul_comm n.toNat]
    exact Nat.mul_lt_mul_of_pos_right w.toNat_lt hpos
  exact ⟨_, _, rfl, hscaled _⟩

/-- A choice below a positive bound is made. -/
theorem gives_below {n : Int} (hn : 0 < n) : Gives (s.below n) fun k => (k : Int) < n := by
  have hword : (UInt64.ofNat n.toNat).toNat = n.toNat % 2 ^ 64 := UInt64.toNat_ofNat
  rw [Source.below, if_neg (by omega)]
  dsimp only
  split
  · refine (gives_word s).bind fun w _ => .pure ?_
    have hmask : (w &&& (UInt64.ofNat n.toNat - 1)).toNat ≤ (UInt64.ofNat n.toNat - 1).toNat := by
      rw [UInt64.toNat_and]
      exact Nat.and_le_right
    rw [UInt64.toNat_sub, hword, UInt64.toNat_one] at hmask
    omega
  · next hmask =>
      have hne : UInt64.ofNat n.toNat ≠ 0 := fun h => hmask (by rw [h]; exact UInt64.zero_and)
      refine (gives_scaled s hne).imp fun k hk => ?_
      have hmod := Nat.mod_le n.toNat (2 ^ 64)
      omega

/-- There is no choice below a bound that is not positive. -/
theorem below_run_of_nonpos {n : Int} (hn : n ≤ 0) (st : σ) :
    (s.below n).run st = (.error .emptyRange, st) := by
  rw [Source.below, if_pos hn]
  rfl

end

end Ripple.Mock
