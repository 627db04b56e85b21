import Ripple.Proofs.Java.Occurrence
import Ripple.Proofs.Lists
import Ripple.Java.Grammar.Declaration

/-!
# Ripple.Proofs.Java.Calls

Which calls of a method body are recorded.

A call site is an invocation, a creation or a call of another constructor of the class, at any depth
of the body: in arguments, lambdas, anonymous classes and the targets of assignments as well.  The
analysis records each of them once, in source order, except those that stand in an overlooked place;
so `Within.calls_recorded` says both what is recorded and when nothing is missing.  `lostCalls` is a
source in which something is.
-/

namespace Ripple.Java

/-- The call sites of the body of a method, with their places. -/
def Method.callSites (m : Method) (className : String) : List (Place × Call) :=
  m.occurrences.filterMap fun c => (c.2.call? className).map (c.1, ·)

/-- What is recorded of the call sites. -/
theorem Method.facts_calls (m : Method) (className : String) (fields : List String) :
    (m.facts className fields).calls =
      ((m.callSites className).filter (·.1 ≠ .overlooked)).map (·.2) := by
  rw [facts_eq, callSites, List.filter_filterMap, List.map_filterMap, List.filterMap_filter]
  refine List.filterMap_congr fun c _ => ?_
  cases hcall : c.2.call? className with
  | none => simp
  | some call => by_cases hplace : c.1 = .overlooked <;> simp [hplace, Option.filter_some]

/-- **Recorded calls**: of every method that a type nested anywhere in a compilation unit declares,
the calls are recorded that do not stand in an overlooked place, each once and with its name, its
number of arguments and its line; so all its call sites are recorded, each once, exactly when none
of them stands there. -/
theorem TypeDecl.Within.calls_recorded {ds : List TypeDecl} {d e : TypeDecl} (he : e ∈ ds)
    (h : d.Within e) :
    ∃ around, d.ownFacts around ∈ unitFacts ds ∧
      List.Forall₂ (fun m f => f.name = m.name ∧ f.line = m.line ∧
        f.calls = ((m.callSites d.name).filter (·.1 ≠ .overlooked)).map (·.2) ∧
        (f.calls.Perm ((m.callSites d.name).map (·.2)) ↔
          ∀ c ∈ m.callSites d.name, c.1 ≠ .overlooked))
        d.methods (d.ownFacts around).methods := by
  obtain ⟨around, hmem, hfacts⟩ := h.exists_facts he
  refine ⟨around, hmem, hfacts.imp ?_⟩
  rintro m f rfl
  refine ⟨rfl, rfl, m.facts_calls _ _, ?_⟩
  rw [m.facts_calls, map_filter_perm_iff]
  simp

/-- A nested type with a method that passes a lambda to `run`. -/
def lambdaType : TypeDecl :=
  .mk "B" 2 2 [] [.method ⟨"f", 3, 3, "void", [], [], some (.group .block
    [.invoke none "run" 4
      [.lambda ["x"] (.invoke (some (.create none "java.util.List<X>" 5 [] [])) "add" 6
        [.name .use "x" 6])]])⟩]

/-- The calls in the lambda are the method's, each once. -/
theorem lambdaType_calls_recorded :
    lambdaType.Within (.mk "A" 1 1 [] [.nested lambdaType]) ∧
      ∃ around, lambdaType.ownFacts around ∈ unitFacts [.mk "A" 1 1 [] [.nested lambdaType]] ∧
        (lambdaType.ownFacts around).methods.map (·.calls) =
          [[⟨"run", 1, 4⟩, ⟨"add", 1, 6⟩, ⟨"List", 0, 5⟩]] := by
  have hwithin : lambdaType.Within (.mk "A" 1 1 [] [.nested lambdaType]) :=
    .nested List.mem_cons_self .self
  obtain ⟨around, hmem, hfacts⟩ := hwithin.calls_recorded (List.mem_singleton.mpr rfl)
  refine ⟨hwithin, around, hmem, ?_⟩
  obtain ⟨f, fs, ⟨-, -, hcalls, -⟩, hrest, heq⟩ := List.forall₂_cons_left_iff.mp hfacts
  cases hrest
  have hsites : (lambdaType.methods.map fun m =>
      ((m.callSites lambdaType.name).filter (·.1 ≠ .overlooked)).map (·.2)) =
        [[⟨"run", 1, 4⟩, ⟨"add", 1, 6⟩, ⟨"List", 0, 5⟩]] := by
    decide +kernel
  rw [heq, List.map_singleton, hcalls]
  exact hsites

/-- A source with calls in the qualifier of a method reference and in the outer object of a
creation. -/
def lostCalls : String :=
  "class A \x7b void f() \x7b run(make()::go); make().new B(); \x7d \x7d"

/-- The method invokes `make`, and no such call is recorded. -/
theorem lostCalls_not_recorded :
    (∃ d ∈ parse lostCalls, ∃ m ∈ d.methods, ⟨"make", 0, 1⟩ ∈ (m.callSites d.name).map (·.2)) ∧
      ∀ c ∈ unitFacts (parse lostCalls), ∀ f ∈ c.methods, ⟨"make", 0, 1⟩ ∉ f.calls := by
  decide +kernel

end Ripple.Java
