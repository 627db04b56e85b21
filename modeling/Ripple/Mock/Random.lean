/-!
# Ripple.Mock.Random

Pseudo-random choices.  A source gives words of 64 bits.  A choice below a bound scales a word down;
the words that would give some numbers a larger share are drawn again, for as long as it takes.  A
bound that is not positive is refused.
-/

namespace Ripple.Mock

/-- Whether a word counts for a choice below `n`: equally many do for each number below `n`. -/
def counts (n word : UInt64) : Bool := -n % n ≤ word * n

/-- A word that counts for a choice below `n` will be given. -/
inductive Settles (next : σ → UInt64 × σ) (n : UInt64) : σ → Prop where
  | now {st : σ} (h : counts n (next st).1 = true) : Settles next n st
  | later {st : σ} (h : Settles next n (next st).2) : Settles next n st

/-- A source of words.  With words that never count a choice would go on for ever; what ends has
read some words only, and those may be any. -/
structure Source (σ : Type) where
  next : σ → UInt64 × σ
  fair : ∀ n st, Settles next n st

/-- Why a draw comes to nothing. -/
inductive DrawError where
  /-- There is nothing to choose from. -/
  | emptyRange
  /-- A table of some size has no such place. -/
  | outOfRange (place size : Nat)
  deriving DecidableEq, Repr

/-- A computation that draws from a source. -/
abbrev Draw (σ : Type) := ExceptT DrawError (StateM σ)

/-- What a table of some size has at a place. -/
def entry (size : Nat) (table : Nat → α) (place : Nat) : Draw σ α :=
  if place < size then return table place else throw (.outOfRange place size)

namespace Source

/-- The next word. -/
def word (s : Source σ) : Draw σ UInt64 := fun st =>
  let (w, st) := s.next st
  (.ok w, st)

/-- A state that is left because its word does not count, and the one after it. -/
def Redrawn (s : Source σ) (n : UInt64) (st' st : σ) : Prop :=
  counts n (s.next st).1 = false ∧ st' = (s.next st).2

theorem redrawn_wellFounded (s : Source σ) (n : UInt64) : WellFounded (s.Redrawn n) := by
  refine ⟨fun st => ?_⟩
  induction s.fair n st with
  | now h => exact ⟨_, fun st' hst => absurd (hst.1.symm.trans h) Bool.false_ne_true⟩
  | later _ ih => exact ⟨_, fun st' hst => hst.2 ▸ ih⟩

/-- The first word that counts for a choice below `n`, with the state after it. -/
def firstCounting (s : Source σ) (n : UInt64) (st : σ) : UInt64 × σ :=
  if counts n (s.next st).1 then s.next st else s.firstCounting n (s.next st).2
termination_by (s.redrawn_wellFounded n).wrap st
decreasing_by exact ⟨Bool.eq_false_iff.mpr (by assumption), rfl⟩

/-- Draws a number below `n` by scaling a word that counts. -/
def scaled (s : Source σ) (n : UInt64) : Draw σ Nat := fun st =>
  let (w, st) := s.firstCounting n st
  (.ok ((w.toNat * n.toNat) >>> 64), st)

/-- Draws a number below `n`. -/
def below (s : Source σ) (n : Int) : Draw σ Nat := do
  if n ≤ 0 then throw .emptyRange
  let n := UInt64.ofNat n.toNat
  if n &&& (n - 1) = 0 then return ((← s.word) &&& (n - 1)).toNat
  else s.scaled n

/-- Whether the 53 low bits of the next word are below a limit. -/
def chance (s : Source σ) (limit : Nat) : Draw σ Bool := do
  return (← s.word).toNat % 0x20000000000000 < limit

end Source

end Ripple.Mock
