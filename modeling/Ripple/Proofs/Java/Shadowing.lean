import Ripple.Proofs.Java.Occurrence
import Ripple.Proofs.Lists
import Ripple.Java.Grammar.Declaration

/-!
# Ripple.Proofs.Java.Shadowing

Which bare names of a method body are taken for fields.

Two recursions over the same tree have to agree: one collects the variables of a method, the other
looks for accesses.  `Method.OnlySelects` says that of a name no bare occurrence is recorded: the
accesses of that name are those that select it, as in `a.f`.  That holds of every parameter, local
variable, loop variable, resource, caught exception, lambda parameter and variable of a type test,
in any nesting; `Within.accesses_recorded` says when it holds of any name.  Variables of patterns
are not collected, and the names of nested methods and types are looked at like any others:
`unshadowed` is a source in which both are recorded.
-/

namespace Ripple.Java

/-- The access that a construct is by selection. -/
def Tree.selected? : Tree → Option Access
  | .select _ field line => some ⟨field, line⟩
  | _ => none

/-- The bare name that a construct is, whatever its role. -/
def Tree.bare? : Tree → Option String
  | .name _ id _ => some id
  | _ => none

/-- The variables that a construct declares by itself, those of patterns included. -/
def Tree.bound : Tree → List String
  | .name .patternVariable id _ => [id]
  | t => t.binders

namespace Method

/-- The variables of a method, those of patterns included. -/
def bound (m : Method) : List String :=
  m.parameters.map (·.name) ++ m.occurrences.flatMap fun c => c.2.bound

/-- The accesses by selection that stand in a place of the body of a method. -/
def selections (m : Method) (p : Place) : List Access :=
  (m.occurrences.filter (·.1 = p)).filterMap fun c => c.2.selected?

/-- The accesses of a name are those that select it: no bare occurrence of the name is recorded. -/
def OnlySelects (m : Method) (f : MethodFacts) (x : String) : Prop :=
  f.reads.filter (·.name = x) = (m.selections .value).filter (·.name = x) ∧
    f.writes.filter (·.name = x) = (m.selections .target).filter (·.name = x)

end Method

/-! ## accesses of one name -/

theorem Method.isField_scope (m : Method) (className : String) (fields : List String)
    (x : String) :
    (m.scope className fields).isField x = true ↔ x ∈ fields ∧ x ∉ m.binders := by
  simp [scope, BodyScope.isField]

/-- A construct is an access of a name other than by selection when it is the bare name, and the
name means a field. -/
theorem Tree.filter_access?_eq_iff (s : BodyScope) (t : Tree) (x : String) :
    (t.access? s).filter (·.name = x) = t.selected?.filter (·.name = x) ↔
      (t.bare? = some x → s.isField x = false) := by
  cases t with
  | name role id line =>
      by_cases hid : id = x
      · subst hid
        cases hfield : s.isField id <;> simp [access?, selected?, bare?, hfield, Option.filter_some]
      · cases hfield : s.isField id <;>
          simp [access?, selected?, bare?, hfield, hid, Option.filter_some]
  | _ => simp [access?, selected?, bare?]

/-- Of the accesses of a name in a place, those by selection are all exactly when no bare name in
that place is taken for the field. -/
theorem Method.filter_access_eq_iff (m : Method) (s : BodyScope) (p : Place) (x : String) :
    ((m.occurrences.filter (·.1 = p)).filterMap fun c => c.2.access? s).filter (·.name = x) =
        (m.selections p).filter (·.name = x) ↔
      ∀ c ∈ m.occurrences, c.1 = p → c.2.bare? = some x → s.isField x = false := by
  rw [selections, List.filter_filterMap, List.filter_filterMap, filterMap_eq_filterMap_iff]
  · simp only [Tree.filter_access?_eq_iff, List.mem_filter, decide_eq_true_eq, and_imp]
  · intro c _
    cases c.2 <;> simp [Tree.selected?, Tree.access?]

/-- When no bare occurrence of a name is recorded. -/
theorem Method.onlySelects_iff (m : Method) (className : String) (fields : List String)
    (x : String) :
    m.OnlySelects (m.facts className fields) x ↔
      (x ∈ fields → x ∈ m.binders ∨
        ∀ c ∈ m.occurrences, c.2.bare? = some x → c.1 = .overlooked) := by
  have hfield := m.isField_scope className fields x
  rw [OnlySelects, facts_eq, filter_access_eq_iff, filter_access_eq_iff]
  constructor
  · rintro ⟨hvalue, htarget⟩ hx
    by_cases hbound : x ∈ m.binders
    · exact .inl hbound
    · have htrue := hfield.mpr ⟨hx, hbound⟩
      refine .inr fun c hc hbare => ?_
      cases hplace : c.1 with
      | value => exact absurd (hvalue c hc hplace hbare) (by simp [htrue])
      | target => exact absurd (htarget c hc hplace hbare) (by simp [htrue])
      | overlooked => rfl
  · intro h
    have hplaces : ∀ c ∈ m.occurrences, c.1 ≠ .overlooked → c.2.bare? = some x →
        (m.scope className fields).isField x = false := by
      intro c hc hplace hbare
      rw [← Bool.not_eq_true, hfield]
      rintro ⟨hx, hfree⟩
      exact (h hx).elim hfree fun hall => hplace (hall c hc hbare)
    exact ⟨fun c hc hplace => hplaces c hc (by simp [hplace]),
      fun c hc hplace => hplaces c hc (by simp [hplace])⟩

/-- **Recorded accesses**: of every method that a type nested anywhere in a compilation unit
declares, no bare occurrence of a variable is recorded as a read or write of a field, whether the
variable is a parameter or is declared anywhere in the body other than in a pattern; and of any
name, no bare occurrence is recorded exactly when no field of that name is visible, a variable of
that name is declared, or the name stands in overlooked places only. -/
theorem TypeDecl.Within.accesses_recorded {ds : List TypeDecl} {d e : TypeDecl} (he : e ∈ ds)
    (h : d.Within e) :
    ∃ around, d.ownFacts around ∈ unitFacts ds ∧
      List.Forall₂ (fun m f => f.name = m.name ∧ f.line = m.line ∧
        (∀ x ∈ m.binders, m.OnlySelects f x) ∧
        ∀ x, m.OnlySelects f x ↔ (x ∈ d.visible around → x ∈ m.binders ∨
          ∀ c ∈ m.occurrences, c.2.bare? = some x → c.1 = .overlooked))
        d.methods (d.ownFacts around).methods := by
  obtain ⟨around, hmem, hfacts⟩ := h.exists_facts he
  refine ⟨around, hmem, hfacts.imp ?_⟩
  rintro m f rfl
  have hiff := m.onlySelects_iff d.name (d.visible around)
  exact ⟨rfl, rfl, fun x hx => (hiff x).mpr fun _ => .inl hx, hiff⟩

/-- A type with a field `x`, and a method with a loop variable of that name. -/
def loopType : TypeDecl :=
  .mk "A" 1 1 [] [.fields "int" [⟨"x", 2, none⟩],
    .method ⟨"f", 3, 3, "void", [], [], some (.group .block
      [.group .statement [.variable .forEach "x" (some (.name .use "all" 4)),
        .invoke none "g" 5 [.name .use "x" 5, .select (.group .operation []) "x" 6]]])⟩]

/-- Of the two mentions of `x`, the bare one is the loop variable. -/
theorem loopType_accesses_recorded :
    "x" ∈ loopType.fieldFacts.map (·.name) ∧ (∀ m ∈ loopType.methods, "x" ∈ m.binders) ∧
      ∃ around, loopType.ownFacts around ∈ unitFacts [loopType] ∧
        (loopType.ownFacts around).methods.map (fun f => f.reads.filter (·.name = "x")) =
          [[⟨"x", 6⟩]] := by
  have hbinders : ∀ m ∈ loopType.methods, "x" ∈ m.binders := by decide +kernel
  have hselections : ∀ m ∈ loopType.methods,
      (m.selections .value).filter (·.name = "x") = [⟨"x", 6⟩] := by
    decide +kernel
  obtain ⟨around, hmem, hfacts⟩ :=
    (TypeDecl.Within.self (d := loopType)).accesses_recorded (List.mem_singleton.mpr rfl)
  refine ⟨by decide, hbinders, around, hmem, ?_⟩
  obtain ⟨f, fs, ⟨-, -, honly, -⟩, hrest, heq⟩ := List.forall₂_cons_left_iff.mp hfacts
  cases hrest
  have hfirst := honly "x" (hbinders _ List.mem_cons_self)
  rw [heq, List.map_singleton, hfirst.1, hselections _ List.mem_cons_self]

/-- A source in which the variable `i` of a pattern and the name `size` of a nested method are also
names of fields. -/
def unshadowed : String :=
  "class A \x7b int i; int size; Object f(Object o) \x7b return switch (o) \x7b " ++
    "case Long i -> i; default -> new B() \x7b int size() \x7b return 1; \x7d \x7d; \x7d; \x7d \x7d"

/-- Both are recorded as reads. -/
theorem unshadowed_recorded :
    (∃ d ∈ parse unshadowed, ∃ m ∈ d.methods, "i" ∈ m.bound ∧ m.selections .value = []) ∧
      ∀ c ∈ unitFacts (parse unshadowed), ∀ f ∈ c.methods,
        f.reads = [⟨"i", 1⟩, ⟨"i", 1⟩, ⟨"size", 1⟩] := by
  decide +kernel

end Ripple.Java
