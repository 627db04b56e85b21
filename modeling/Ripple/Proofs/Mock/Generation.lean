import Ripple.Proofs.Mock.Project

/-!
# Ripple.Proofs.Mock.Generation

Which plans are generated.

A valid plan with room for its layers is generated completely, one file for each class, if its
density gives a positive bound for the number of statements of a service method (`generated_iff`).
That is so if the doubled density is a number above minus one and below `2^63`; otherwise there is
no number of statements to choose from, and nothing is generated.
-/

namespace Ripple.Decimal

/-- The whole part of the size of a number. -/
def Binary.whole (b : Binary) : Nat :=
  if 0 ≤ b.q then b.m * Nat.pow 2 b.q.toNat else b.m / Nat.pow 2 (-b.q).toNat

/-- What has no whole part that fits becomes negative. -/
theorem truncate_nonneg_iff (x : Float) :
    0 ≤ truncate x ↔ x.isNaN = false ∧ x.isInf = false ∧ (Binary.ofFloat x).whole < Word.half ∧
      ((Binary.ofFloat x).negative = true → (Binary.ofFloat x).whole = 0) := by
  have hhalf : (0 : Int) < Word.half := by decide
  rw [truncate]
  cases x.isNaN with
  | true =>
      simp only [if_true, reduceCtorEq, false_and, iff_false]
      omega
  | false =>
      cases x.isInf with
      | true =>
          simp only [Bool.false_eq_true, if_false, if_true, reduceCtorEq, false_and, and_false,
            iff_false]
          omega
      | false =>
          have hwhole : (if 0 ≤ (Binary.ofFloat x).q then
              (Binary.ofFloat x).m * Nat.pow 2 (Binary.ofFloat x).q.toNat
            else (Binary.ofFloat x).m / Nat.pow 2 (-(Binary.ofFloat x).q).toNat) =
              (Binary.ofFloat x).whole := rfl
          simp only [hwhole, Bool.false_eq_true, if_false, true_and]
          cases (Binary.ofFloat x).negative with
          | true =>
              simp only [if_true, true_implies]
              split <;> omega
          | false =>
              simp only [Bool.false_eq_true, if_false, false_implies, and_true]
              split <;> omega

end Ripple.Decimal

namespace Ripple.Mock

variable {σ : Type}

theorem Plan.statementBound_pos_iff (p : Plan) :
    0 < p.statementBound ↔ 0 ≤ Decimal.truncate (p.density * 2) := by
  rw [statementBound]
  omega

theorem classPath_inj {c c' : Nat} (h : classPath c = classPath c') : c = c' := by
  have hname : className c = className c' := by
    simpa [classPath, ← String.toList_inj] using h
  exact numbered_inj hname

/-- There is one file for each class. -/
theorem map_fst_filesOf {p : Plan} {cs : List Nat} {classes : Classes}
    (h : List.Forall₂ p.IsClass cs classes) :
    (filesOf p cs classes).map Prod.fst = cs.map classPath := by
  induction h with
  | nil => rfl
  | cons _ _ ih => rw [filesOf, List.zipWith_cons_cons, List.map_cons, List.map_cons, ← ih, filesOf]

/-- **What is generated**: the draws of a valid plan have something to choose from, but for the
number of statements.  A project is generated, with one file for each class, exactly if there is
room for the layers and the bound of this number is positive; the bound comes from the density
alone. -/
theorem generated_iff (s : Source σ) (start : σ) {p : Plan} (hvalid : p.isValid = true) :
    (generateFrom s start p = .error (.draw .emptyRange) ↔
        p.layers ≤ layerLimit ∧ p.statementBound ≤ 0) ∧
      ((∃ files, generateFrom s start p = .ok files) ↔
        p.layers ≤ layerLimit ∧ 0 < p.statementBound) ∧
      (∀ files, generateFrom s start p = .ok files →
        files.map Prod.fst = (List.range p.classes.toNat).map classPath ∧
          (files.map Prod.fst).Nodup) ∧
      (0 < p.statementBound ↔
        let x := p.density * 2
        x.isNaN = false ∧ x.isInf = false ∧ (Decimal.Binary.ofFloat x).whole < Word.half ∧
          ((Decimal.Binary.ofFloat x).negative = true → (Decimal.Binary.ofFloat x).whole = 0)) := by
  have hbound := p.statementBound_pos_iff.trans (Decimal.truncate_nonneg_iff (p.density * 2))
  obtain ⟨hinvalid, -⟩ | ⟨-, hmany, h⟩ | ⟨-, hlayers, hnonpos, h⟩ |
    ⟨-, hlayers, hpos, classes, hclasses, h⟩ := generateFrom_cases s start p
  · rw [hvalid] at hinvalid
    cases hinvalid
  · refine ⟨?_, ?_, ?_, hbound⟩ <;> simp [h, Nat.not_le.mpr hmany]
  · refine ⟨?_, ?_, ?_, hbound⟩ <;> simp [h, hlayers, hnonpos]
  · refine ⟨?_, ?_, ?_, hbound⟩
    · simp [h, hpos]
    · simp [h, hlayers, hpos]
    · intro files hfiles
      obtain rfl := Except.ok.inj (h.symm.trans hfiles)
      have hpaths := map_fst_filesOf hclasses
      rw [hpaths]
      exact ⟨rfl, List.nodup_range.map fun c c' => classPath_inj⟩

/-- A plan without fields, with more layers than a class has service methods, and with a density
just below zero. -/
def sparsePlan : Plan := ⟨2, -1, 3, 5, -0.25, 9⟩

/-- Both classes of the plan are generated. -/
theorem sparsePlan_generated :
    sparsePlan.isValid = true ∧ ∃ files, generate sparsePlan = .ok files ∧
      files.map Prod.fst = [classPath 0, classPath 1] := by
  obtain ⟨-, hok, hfiles, -⟩ :=
    generated_iff Permuted.source (.ofSeed sparsePlan.seed) (p := sparsePlan) (by decide)
  obtain ⟨files, h⟩ := hok.mpr ⟨by decide, by decide +kernel⟩
  exact ⟨by decide, files, h, (hfiles files h).1⟩

/-- A plan with one class and one service method, and a density of minus one. -/
def negativePlan : Plan := ⟨1, 0, 1, 1, -1, 1⟩

/-- The plan is valid, and there is no number of statements to choose from. -/
theorem negativePlan_stops :
    negativePlan.isValid = true ∧ negativePlan.statementBound = -1 ∧
      generate negativePlan = .error (.draw .emptyRange) := by
  have hbound : negativePlan.statementBound = -1 := by decide +kernel
  refine ⟨by decide, hbound, ?_⟩
  exact generateFrom_of_nonpos Permuted.source _ (by decide) (by decide) (by rw [hbound]; decide)

end Ripple.Mock
