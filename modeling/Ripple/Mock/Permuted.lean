import Ripple.Mock.Random
import Ripple.Word

/-!
# Ripple.Mock.Permuted

A pseudo-random generator.  Its state is a linear congruential sequence modulo `2^128`; its words
are mixed from both halves of the state.

The sequence goes through all its states (`exists_advance`), among them one whose word is one, which
counts for a choice below any bound.  So the words of the generator are fair, whatever the seed.
-/

namespace Ripple.Mock

/-- The state of a generator, below `2^128`. -/
structure Permuted where
  state : Nat
  deriving DecidableEq, Repr

namespace Permuted

/-- The factor of the sequence. -/
def multiplier : Nat := 2549297995355413924 * Word.count + 4865540595714422341

/-- The increment of the sequence. -/
def increment : Nat := 6364136223846793005 * Word.count + 1442695040888963407

/-- The factor of the mixing. -/
def mixer : UInt64 := 0xda942042e4dd58b5

/-- The state with a seed in both halves. -/
def ofSeed (seed : UInt64) : Permuted := ⟨seed.toNat * Word.count + seed.toNat⟩

/-- The state after this one. -/
def step (p : Permuted) : Permuted :=
  ⟨(p.state * multiplier + increment) % (Word.count * Word.count)⟩

/-- The word of a state. -/
def output (p : Permuted) : UInt64 :=
  let high := UInt64.ofNat (p.state >>> 64)
  let low := UInt64.ofNat (p.state % Word.count)
  let x := (high ^^^ (high >>> 32)) * mixer
  (x ^^^ (x >>> 48)) * (low ||| 1)

/-- The word after a state, and the state that it comes from. -/
def next (p : Permuted) : UInt64 × Permuted := (p.step.output, p.step)

/-! ## the period -/

/-- Where some steps lead to from a number if no bits are cut off. -/
def advance (x : Nat) : Nat → Nat
  | 0 => x
  | k + 1 => advance x k * multiplier + increment

theorem advance_add (x j k : Nat) : advance x (j + k) = advance (advance x j) k := by
  induction k with
  | zero => rfl
  | succ k ih => rw [Nat.add_succ, advance, advance, ih]

theorem advance_mod (x k m : Nat) : advance (x % m) k % m = advance x k % m := by
  induction k with
  | zero => exact Nat.mod_mod x m
  | succ k ih => rw [advance, advance, Nat.add_mod, Nat.mul_mod, ih, ← Nat.mul_mod, ← Nat.add_mod]

/-- `2^j` steps add an odd multiple of `2^j`. -/
theorem advance_two_pow (j : Nat) :
    ∃ u v, ∀ x, advance x (Nat.pow 2 j) = x + Nat.pow 2 j * (2 * (2 * u * x + v) + 1) := by
  induction j with
  | zero =>
      have hmultiplier : multiplier = 4 * (multiplier / 4) + 1 := by decide +kernel
      have hincrement : increment = 2 * (increment / 2) + 1 := by decide +kernel
      refine ⟨multiplier / 4, increment / 2, fun x => ?_⟩
      calc advance x 1 = x * (4 * (multiplier / 4) + 1) + (2 * (increment / 2) + 1) := by
            rw [← hmultiplier, ← hincrement]; rfl
        _ = x + 1 * (2 * (2 * (multiplier / 4) * x + increment / 2) + 1) := by grind
  | succ j ih =>
      obtain ⟨u, v, h⟩ := ih
      have hdouble : Nat.pow 2 (j + 1) = Nat.pow 2 j + Nat.pow 2 j := Nat.mul_two _
      rw [hdouble]
      generalize Nat.pow 2 j = q at h
      refine ⟨u + 2 * q * u * u, v + q * u * (2 * v + 1), fun x => ?_⟩
      rw [advance_add, h, h]
      grind

/-- **Full period**: from any number, the sequence leads to each remainder of each power of two. -/
theorem exists_advance (x y j : Nat) : ∃ k, advance x k % Nat.pow 2 j = y % Nat.pow 2 j := by
  induction j with
  | zero => exact ⟨0, (Nat.mod_one _).trans (Nat.mod_one _).symm⟩
  | succ j ih =>
      obtain ⟨k, hk⟩ := ih
      obtain ⟨u, v, h⟩ := advance_two_pow j
      have hpos : 0 < Nat.pow 2 j := Nat.two_pow_pos j
      have hdouble : Nat.pow 2 (j + 1) = Nat.pow 2 j * 2 := rfl
      rw [hdouble]
      generalize Nat.pow 2 j = q at h hk hpos
      simp only [Nat.mod_mul]
      by_cases hbit : advance x k / q % 2 = y / q % 2
      · exact ⟨k, by rw [hk, hbit]⟩
      · -- the highest bit is wrong: `q` more steps change it and none of the bits below it
        have hflip : (advance x k / q + (2 * (2 * u * advance x k + v) + 1)) % 2 = y / q % 2 := by
          omega
        refine ⟨k + q, ?_⟩
        rw [advance_add, h, Nat.add_mul_mod_self_left, hk, Nat.add_mul_div_left _ _ hpos, hflip]

/-! ## fairness -/

theorem counts_one (n : UInt64) : counts n 1 = true := by
  have hmod : (-n % n).toNat ≤ n.toNat := by
    by_cases hn : n = 0
    · subst hn
      decide
    · have hpos : 0 < n.toNat := Nat.pos_of_ne_zero fun h => hn (UInt64.toNat_inj.mp h)
      rw [UInt64.toNat_mod]
      exact Nat.le_of_lt (Nat.mod_lt _ hpos)
  rw [counts, UInt64.one_mul]
  exact decide_eq_true hmod

/-- A state whose word is one. -/
def unit : Permuted := ⟨0x8b838d03df69589e * Word.count⟩

theorem output_unit : unit.output = 1 := by decide +kernel

/-- A word that counts settles the choices of the states before it. -/
theorem settles_of_advance {n : UInt64} {p : Permuted} {k : Nat}
    (h : counts n (output ⟨advance p.state (k + 1) % (Word.count * Word.count)⟩) = true) :
    Settles next n p := by
  induction k generalizing p with
  | zero => exact .now h
  | succ k ih =>
      have hstep : advance (next p).2.state (k + 1) % (Word.count * Word.count) =
          advance p.state (k + 1 + 1) % (Word.count * Word.count) := by
        rw [next, step, advance_mod, Nat.add_comm (k + 1) 1, advance_add p.state 1]
        rfl
      refine .later (ih ?_)
      rw [hstep]
      exact h

theorem settles_next (n : UInt64) (p : Permuted) : Settles next n p := by
  have hcount : Word.count * Word.count = Nat.pow 2 128 := by decide
  obtain ⟨k, hk⟩ := exists_advance (advance p.state 1) unit.state 128
  rw [← advance_add, ← hcount, Nat.add_comm] at hk
  have hunit : unit.state % (Word.count * Word.count) = unit.state := by decide +kernel
  refine settles_of_advance (k := k) ?_
  rw [hk, hunit]
  exact output_unit ▸ counts_one n

/-- The generator as a source. -/
def source : Source Permuted := ⟨next, settles_next⟩

end Permuted

end Ripple.Mock
