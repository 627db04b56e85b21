import Ripple.Proofs.Go.Occurrence

/-!
# Ripple.Proofs.Go.Accesses

Which selections of fields a function body is recorded to read and to write.

A selection is recorded as a write if a statement assigns it, and as a read unless the assignment is
plain.  Range clauses are the exception: what they assign is recorded as read
(`rangeTarget_read`).
-/

namespace Ripple.Go

/-- The operand of a selection, of an index or of a dereference. -/
def Expr.base? : Expr → Option Expr
  | .selector x _ | .index x _ | .star x => some x
  | _ => none

namespace Construct

/-- Whatever becomes of a selection, its operand is only used. -/
theorem base_mem_parts {role : Role} {x base : Expr} (h : x.base? = some base) :
    (.value, expr base) ∈ (expr x).parts role := by
  cases x <;> simp_all [Expr.base?, parts, exprParts, exprs]

section
variable {r : Resolution} {role : Role} {x : Expr} {sel : Ident}
  (h : r.fields.contains sel.index = true)
include h

theorem write_mem_own_iff : .write sel.name sel.line ∈ own r role (expr (.selector x sel)) ↔
    role = .assigned ∨ role = .updated := by
  cases role <;> simp [own, Resolution.access, h, Role.use]

theorem read_mem_own_iff : .read sel.name sel.line ∈ own r role (expr (.selector x sel)) ↔
    role ≠ .assigned := by
  cases role <;> simp [own, Resolution.access, h, Role.use]

end

end Construct

/-- What a body does is the sum over its occurrences. -/
theorem eventsAll_eq (r : Resolution) (body : List Stmt) :
    Stmt.eventsAll r body = (occurrencesIn body).flatMap fun o => o.2.own r o.1 :=
  Construct.eventsIn_eq r .value (.stmt (.block body))

/-- **Recorded accesses**: a body records what its occurrences do by themselves.  The selection of a
field is recorded as a write if it is on the left side of an assignment or is incremented or
decremented, and as a read unless the assignment is plain.  A selection is assigned in a role if it
is, without brackets, a target of a statement in that role; and whatever becomes of a selection, of
an index or of a dereference, its operand is only used. -/
theorem selections_recorded (r : Resolution) (body : List Stmt) :
    Stmt.eventsAll r body = (occurrencesIn body).flatMap (fun o => o.2.own r o.1) ∧
    (∀ role x sel, (role, Construct.expr (.selector x sel)) ∈ occurrencesIn body →
      r.fields.contains sel.index = true →
      (.write sel.name sel.line ∈ Construct.own r role (.expr (.selector x sel)) ↔
        role = .assigned ∨ role = .updated) ∧
      (.read sel.name sel.line ∈ Construct.own r role (.expr (.selector x sel)) ↔
        role ≠ .assigned)) ∧
    (∀ role x sel, role ≠ .value →
      ((role, Construct.expr (.selector x sel)) ∈ occurrencesIn body ↔
        ∃ s e, (.value, Construct.stmt s) ∈ occurrencesIn body ∧ (role, e) ∈ s.targets ∧
          e.unparen = .selector x sel)) ∧
    ∀ role x base, (role, Construct.expr x) ∈ occurrencesIn body → x.base? = some base →
      (.value, Construct.expr base.unparen) ∈ occurrencesIn body := by
  refine ⟨eventsAll_eq r body, ?_, ?_, ?_⟩
  · intro role x sel _ hfield
    exact ⟨Construct.write_mem_own_iff hfield, Construct.read_mem_own_iff hfield⟩
  · intro role x sel hrole
    exact mem_occurrencesIn_iff_target hrole
  · intro role x base hx hbase
    exact Construct.unparen_mem_occurrences
      (Construct.mem_occurrences_of_part hx (Construct.base_mem_parts hbase))

/-- The names of some fields of `b`, by their positions: `b.n`, `b.m` and `b.k`. -/
def sampleFields : Resolution := ⟨∅, {2, 5, 8}⟩

/-- The selection of a field of `b`. -/
def fieldOfB (name : String) (line index : Nat) : Expr :=
  .selector (.ident ⟨"b", line, index - 1⟩) ⟨name, line, index⟩

/-- The body of `(b.n), xs[b.m] = 1, 2`, which is followed by `b.k++`. -/
def sampleBody : List Stmt :=
  [.assign "=" [.paren (fieldOfB "n" 1 2), .index (.ident ⟨"xs", 1, 4⟩) [fieldOfB "m" 1 5]]
    [.literal .int "1", .literal .int "2"],
    .incDec (fieldOfB "k" 2 8)]

/-- The first target is written, the index of the second one is read, and `b.k` is both. -/
theorem sampleBody_recorded :
    Stmt.eventsAll sampleFields sampleBody =
        [.write "n" 1, .read "m" 1, .read "k" 2, .write "k" 2] ∧
      (.assigned, Construct.expr (fieldOfB "n" 1 2)) ∈ occurrencesIn sampleBody ∧
      Event.write "n" 1 ∈ Construct.own sampleFields .assigned (.expr (fieldOfB "n" 1 2)) ∧
      Event.read "n" 1 ∉ Construct.own sampleFields .assigned (.expr (fieldOfB "n" 1 2)) := by
  obtain ⟨-, hown, htarget, -⟩ := selections_recorded sampleFields sampleBody
  have hblock : (.value, Construct.stmt (.block sampleBody)) ∈ occurrencesIn sampleBody :=
    Construct.mem_occurrences.mpr (.inl rfl)
  have hassign := Construct.mem_occurrences_of_part hblock List.mem_cons_self
  have hn : (.assigned, Construct.expr (fieldOfB "n" 1 2)) ∈ occurrencesIn sampleBody :=
    (htarget .assigned _ _ (by decide)).mpr ⟨_, _, hassign, List.mem_cons_self, rfl⟩
  obtain ⟨hwrite, hread⟩ := hown .assigned _ _ hn (by simp [sampleFields])
  refine ⟨?_, hn, hwrite.mpr (.inl rfl), fun h => hread.mp h rfl⟩
  simp [sampleBody, Stmt.eventsAll, Stmt.events, Expr.eventsAll, Expr.events, fieldOfB, assignUse,
    sampleFields, Resolution.access]

/-- The body of `for b.n = range xs`. -/
def rangeBody : List Stmt := [.range (some (fieldOfB "n" 1 2)) none false (.ident ⟨"xs", 1, 3⟩) []]

/-- The range clause assigns `b.n`, which is recorded as a read and not as a write. -/
theorem rangeTarget_read :
    (∃ s, s ∈ rangeBody ∧ (.iterated, fieldOfB "n" 1 2) ∈ s.targets) ∧
      Stmt.eventsAll sampleFields rangeBody = [.read "n" 1] := by
  refine ⟨⟨_, List.mem_cons_self, List.mem_cons_self⟩, ?_⟩
  simp [rangeBody, Stmt.eventsAll, Stmt.events, Expr.eventsOf?, Expr.events, fieldOfB, sampleFields,
    Resolution.access]

end Ripple.Go
