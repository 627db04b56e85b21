import Ripple.Go.Body
import Mathlib.Data.List.Basic

/-!
# Ripple.Proofs.Go.Occurrence

Every expression and statement of a function body, at any depth, with the role in which it stands.

`Construct.parts` lists the immediate parts of a construct, each with its `Role`: its value is used,
or a statement assigns it.  Brackets keep the role of what they enclose.  `Construct.occurrences` is
the closure of that: a construct and all that occurs in it, each occurrence once, in source order.
What a body does is the sum of what its occurrences do by themselves (`eventsIn_eq`), which follows
from what one construct adds to its parts (`eventsIn_step`).
-/

namespace Ripple.Go

/-- How the construct around it uses an expression. -/
inductive Role where
  | value
  /-- It is on the left side of a definition or of a plain assignment. -/
  | assigned
  /-- It is on the left side of an assignment with an operator, or is incremented or decremented. -/
  | updated
  /-- It is the key or the value of a range clause. -/
  | iterated
  deriving DecidableEq, Repr

/-- The role of the left side of an assignment. -/
def Role.ofAssign (op : String) : Role := if op = "=" ∨ op = ":=" then .assigned else .updated

/-- An expression or a statement. -/
inductive Construct where
  | expr (x : Expr)
  | stmt (s : Stmt)

namespace Construct

/-! ## parts -/

/-- Expressions in a role. -/
def exprs (role : Role) (xs : List Expr) : List (Role × Construct) :=
  xs.map fun x => (role, .expr x)

/-- Statements, which have no value. -/
def stmts (ss : List Stmt) : List (Role × Construct) := ss.map fun s => (.value, .stmt s)

/-- The types of some fields. -/
def fields (fs : List Field) : List (Role × Construct) := exprs .value (fs.map Field.type)

/-- The types in a signature. -/
def signature (t : FuncType) : List (Role × Construct) :=
  fields t.typeParams ++ fields t.params ++ fields t.results

/-- The parts of a clause. -/
def clause : Clause → List (Role × Construct)
  | .mk comm xs body => stmts comm.toList ++ exprs .value xs ++ stmts body

/-- The parts of a local declaration. -/
def spec : Spec → List (Role × Construct)
  | .const _ type values _ | .var _ type values => exprs .value type.toList ++ exprs .value values
  | .type _ typeParams _ type => fields typeParams ++ exprs .value [type]

/-- The immediate parts of an expression in a role, in source order. -/
def exprParts (role : Role) : Expr → List (Role × Construct)
  | .ident _ | .literal _ _ => []
  | .funcLit type body => signature type ++ stmts body
  | .composite type es => exprs .value type.toList ++ exprs .value es
  | .paren x => exprs role [x]
  | .selector x _ | .star x | .unary _ x | .chan _ x => exprs .value [x]
  | .keyValue x y | .binary _ x y | .map x y => exprs .value [x, y]
  | .index x args | .call x args _ _ _ => exprs .value (x :: args)
  | .slice x low high max =>
    exprs .value [x] ++ exprs .value low.toList ++ exprs .value high.toList ++
      exprs .value max.toList
  | .assertion x type => exprs .value [x] ++ exprs .value type.toList
  | .ellipsis x => exprs .value x.toList
  | .array n x => exprs .value n.toList ++ exprs .value [x]
  | .struct fs | .interface fs => fields fs
  | .func type => signature type

/-- The immediate parts of a statement, in source order. -/
def stmtParts : Stmt → List (Role × Construct)
  | .expr x | .start x => exprs .value [x]
  | .send x y => exprs .value [x, y]
  | .incDec x => exprs .updated [x]
  | .assign op lhs rhs => exprs (.ofAssign op) lhs ++ exprs .value rhs
  | .result xs => exprs .value xs
  | .jump => []
  | .block body => stmts body
  | .branch init cond body other =>
    stmts init.toList ++ exprs .value [cond] ++ stmts body ++ stmts other.toList
  | .switch init tag clauses =>
    stmts init.toList ++ exprs .value tag.toList ++ clauses.flatMap clause
  | .typeSwitch init _ subject clauses =>
    stmts init.toList ++ exprs .value [subject] ++ clauses.flatMap clause
  | .select clauses => clauses.flatMap clause
  | .loop init cond post body =>
    stmts init.toList ++ exprs .value cond.toList ++ stmts post.toList ++ stmts body
  | .range key value _ x body =>
    exprs .iterated key.toList ++ exprs .iterated value.toList ++ exprs .value [x] ++ stmts body
  | .decl specs => specs.flatMap spec
  | .labelled body => [(.value, .stmt body)]

/-- The immediate parts of a construct in a role. -/
def parts (role : Role) : Construct → List (Role × Construct)
  | .expr x => exprParts role x
  | .stmt s => stmtParts s

/-! ## sizes -/

section
variable {o : Role × Construct}

theorem mem_exprs_cons {role : Role} {x : Expr} {xs : List Expr} :
    o ∈ exprs role (x :: xs) ↔ o = (role, expr x) ∨ o ∈ exprs role xs :=
  List.mem_cons

theorem size_of_mem_exprs {role : Role} {xs : List Expr} (h : o ∈ exprs role xs) :
    sizeOf o.2 ≤ sizeOf xs := by
  obtain ⟨x, hx, rfl⟩ := List.mem_map.mp h
  have := List.sizeOf_lt_of_mem hx
  simp only [expr.sizeOf_spec]
  omega

theorem size_of_mem_stmts {ss : List Stmt} (h : o ∈ stmts ss) : sizeOf o.2 ≤ sizeOf ss := by
  obtain ⟨s, hs, rfl⟩ := List.mem_map.mp h
  have := List.sizeOf_lt_of_mem hs
  simp only [stmt.sizeOf_spec]
  omega

theorem size_of_mem_expr? {role : Role} {x : Option Expr} (h : o ∈ exprs role x.toList) :
    sizeOf o.2 ≤ sizeOf x := by
  cases x with
  | none => cases h
  | some x =>
      obtain rfl := List.mem_singleton.mp h
      simp

theorem size_of_mem_stmt? {s : Option Stmt} (h : o ∈ stmts s.toList) : sizeOf o.2 ≤ sizeOf s := by
  cases s with
  | none => cases h
  | some s =>
      obtain rfl := List.mem_singleton.mp h
      simp

theorem size_of_mem_fields {fs : List Field} (h : o ∈ fields fs) : sizeOf o.2 ≤ sizeOf fs := by
  obtain ⟨x, hx, rfl⟩ := List.mem_map.mp h
  obtain ⟨f, hf, rfl⟩ := List.mem_map.mp hx
  have hlt := List.sizeOf_lt_of_mem hf
  cases f with
  | mk names type tag line =>
      simp only [Field.type, Field.mk.sizeOf_spec, expr.sizeOf_spec] at hlt ⊢
      omega

theorem size_of_mem_signature {t : FuncType} (h : o ∈ signature t) : sizeOf o.2 ≤ sizeOf t := by
  cases t with
  | mk typeParams params results =>
      simp only [signature, FuncType.typeParams, FuncType.params, FuncType.results,
        List.mem_append] at h
      simp only [FuncType.mk.sizeOf_spec]
      obtain (h | h) | h := h <;> have := size_of_mem_fields h <;> omega

theorem size_of_mem_clauses {cs : List Clause} (h : o ∈ cs.flatMap clause) :
    sizeOf o.2 ≤ sizeOf cs := by
  obtain ⟨c, hc, h⟩ := List.mem_flatMap.mp h
  have hlt := List.sizeOf_lt_of_mem hc
  cases c with
  | mk comm xs body =>
      simp only [clause, List.mem_append, Clause.mk.sizeOf_spec] at h hlt
      grind [→ size_of_mem_stmt?, → size_of_mem_exprs, → size_of_mem_stmts]

theorem size_of_mem_specs {ss : List Spec} (h : o ∈ ss.flatMap spec) : sizeOf o.2 ≤ sizeOf ss := by
  obtain ⟨s, hs, h⟩ := List.mem_flatMap.mp h
  have hlt := List.sizeOf_lt_of_mem hs
  cases s <;> simp only [spec, List.mem_append, mem_exprs_cons] at h <;>
    grind [→ size_of_mem_expr?, → size_of_mem_exprs, → size_of_mem_fields]

/-- Parts are smaller than the whole. -/
theorem size_of_mem_parts {role : Role} {c : Construct} (h : o ∈ c.parts role) :
    sizeOf o.2 < sizeOf c := by
  cases c with
  | expr x =>
      cases x <;> simp only [parts, exprParts, List.mem_append, mem_exprs_cons,
        List.not_mem_nil] at h <;>
        grind [→ size_of_mem_exprs, → size_of_mem_stmts, → size_of_mem_expr?, → size_of_mem_fields,
          → size_of_mem_signature]
  | stmt s =>
      cases s <;> simp only [parts, stmtParts, List.mem_append, mem_exprs_cons, List.not_mem_nil,
        List.mem_singleton] at h <;>
        grind [→ size_of_mem_exprs, → size_of_mem_stmts, → size_of_mem_expr?, → size_of_mem_stmt?,
          → size_of_mem_clauses, → size_of_mem_specs]

end

/-- A construct and all that occurs in it, each occurrence once, in source order. -/
def occurrences (role : Role) (c : Construct) : List (Role × Construct) :=
  (role, c) :: (c.parts role).attach.flatMap fun ⟨o, _⟩ => o.2.occurrences o.1
termination_by sizeOf c
decreasing_by exact size_of_mem_parts ‹_›

theorem occurrences_eq (role : Role) (c : Construct) :
    c.occurrences role = (role, c) :: (c.parts role).flatMap fun o => o.2.occurrences o.1 := by
  rw [occurrences, List.flatMap_subtype (fun _ _ => rfl), List.unattach_attach]

/-- What holds of a construct whenever it holds of its parts holds of all. -/
theorem induction_on_parts {motive : Construct → Prop}
    (step : ∀ c, (∀ role, ∀ o ∈ c.parts role, motive o.2) → motive c) (c : Construct) : motive c :=
  step c fun _ o _ => induction_on_parts step o.2
termination_by sizeOf c
decreasing_by exact size_of_mem_parts ‹_›

/-! ## what a construct adds to its parts -/

end Construct

/-- The use that a role is recorded as; what a range clause assigns counts as read. -/
def Role.use : Role → Use
  | .value | .iterated => .read
  | .assigned => .write
  | .updated => .update

theorem assignUse_eq (op : String) : assignUse op = (Role.ofAssign op).use := by
  simp only [assignUse, Role.ofAssign, Bool.or_eq_true, beq_iff_eq]
  split <;> rfl

namespace Construct

/-- What a construct in a role does by itself. -/
def own (r : Resolution) (role : Role) : Construct → List Event
  | .expr (.composite _ es) => es.flatMap r.keyWrite
  | .expr (.selector _ sel) => r.access role.use sel
  | .expr (.call fn _ _ line _) => r.call fn line
  | _ => []

/-- What a construct in a role does. -/
def eventsIn (r : Resolution) (role : Role) : Construct → List Event
  | .expr x => x.events r role.use
  | .stmt s => s.events r

section
variable (r : Resolution)

/-- What some constructs do, each in its role. -/
def eventsOf (os : List (Role × Construct)) : List Event := os.flatMap fun o => o.2.eventsIn r o.1

@[simp] theorem eventsOf_nil : eventsOf r [] = [] := rfl

@[simp] theorem eventsOf_singleton (o : Role × Construct) :
    eventsOf r [o] = o.2.eventsIn r o.1 := by
  simp [eventsOf]

@[simp] theorem eventsOf_append (os os' : List (Role × Construct)) :
    eventsOf r (os ++ os') = eventsOf r os ++ eventsOf r os' :=
  List.flatMap_append

@[simp] theorem eventsOf_exprs (role : Role) (xs : List Expr) :
    eventsOf r (exprs role xs) = Expr.eventsAll r role.use xs := by
  induction xs with
  | nil => rfl
  | cons x xs ih => exact congrArg (x.events r role.use ++ ·) ih

@[simp] theorem eventsOf_stmts (ss : List Stmt) : eventsOf r (stmts ss) = Stmt.eventsAll r ss := by
  induction ss with
  | nil => rfl
  | cons s ss ih => exact congrArg (s.events r ++ ·) ih

@[simp] theorem eventsAll_expr? (x : Option Expr) :
    Expr.eventsAll r .read x.toList = Expr.eventsOf? r x := by
  cases x with
  | none => rfl
  | some x => simp [Expr.eventsAll, Expr.eventsOf?]

@[simp] theorem eventsAll_stmt? (s : Option Stmt) :
    Stmt.eventsAll r s.toList = Stmt.eventsOf? r s := by
  cases s with
  | none => rfl
  | some s => simp [Stmt.eventsAll, Stmt.eventsOf?]

@[simp] theorem eventsOf_fields (fs : List Field) :
    eventsOf r (fields fs) = Field.eventsAll r fs := by
  induction fs with
  | nil => rfl
  | cons f fs ih =>
      cases f with
      | mk names type tag line => exact congrArg (type.events r .read ++ ·) ih

@[simp] theorem eventsOf_signature (t : FuncType) : eventsOf r (signature t) = t.events r := by
  cases t with
  | mk typeParams params results =>
      simp [signature, FuncType.events, FuncType.typeParams, FuncType.params, FuncType.results]

@[simp] theorem eventsOf_clauses (cs : List Clause) :
    eventsOf r (cs.flatMap clause) = Clause.eventsAll r cs := by
  induction cs with
  | nil => rfl
  | cons c cs ih =>
      cases c with
      | mk comm xs body => simp [clause, Clause.eventsAll, ih, Role.use]

@[simp] theorem eventsOf_specs (ss : List Spec) :
    eventsOf r (ss.flatMap spec) = Spec.eventsAll r ss := by
  induction ss with
  | nil => rfl
  | cons s ss ih =>
      cases s <;> simp [spec, Spec.eventsAll, ih, Role.use, Expr.eventsAll]

end

/-- A construct adds its own events in front of those of its parts. -/
theorem eventsIn_step (r : Resolution) (role : Role) (c : Construct) :
    c.eventsIn r role = c.own r role ++ eventsOf r (c.parts role) := by
  cases c with
  | expr x =>
      cases x <;> simp [eventsIn, own, parts, exprParts, Expr.events, Expr.eventsAll, Role.use]
  | stmt s =>
      cases s <;> simp [eventsIn, own, parts, stmtParts, Stmt.events, Expr.eventsAll, Role.use,
        assignUse_eq]

/-! ## sums over all occurrences -/

/-- What a construct does is what the constructs in it do by themselves. -/
theorem eventsIn_eq (r : Resolution) (role : Role) (c : Construct) :
    c.eventsIn r role = (c.occurrences role).flatMap fun o => o.2.own r o.1 := by
  induction c using induction_on_parts generalizing role with
  | step c ih =>
      rw [eventsIn_step, occurrences_eq, List.flatMap_cons, List.flatMap_assoc]
      congr 1
      exact List.flatMap_congr fun o ho => ih role o ho o.1

theorem mem_occurrences {role : Role} {c : Construct} {o : Role × Construct} :
    o ∈ c.occurrences role ↔ o = (role, c) ∨ ∃ p ∈ c.parts role, o ∈ p.2.occurrences p.1 := by
  rw [occurrences_eq, List.mem_cons, List.mem_flatMap]

/-- The parts of what occurs occur too. -/
theorem mem_occurrences_of_part {role : Role} {c : Construct} {o p : Role × Construct}
    (ho : o ∈ c.occurrences role) (hp : p ∈ o.2.parts o.1) : p ∈ c.occurrences role := by
  induction c using induction_on_parts generalizing role with
  | step c ih =>
      obtain rfl | ⟨q, hq, ho⟩ := mem_occurrences.mp ho
      · exact mem_occurrences.mpr (.inr ⟨p, hp, mem_occurrences.mpr (.inl rfl)⟩)
      · exact mem_occurrences.mpr (.inr ⟨q, hq, ih role q hq ho⟩)

end Construct

/-! ## targets of statements -/

/-- The operands that a statement assigns, each with its role. -/
def Stmt.targets : Stmt → List (Role × Expr)
  | .assign op lhs _ => lhs.map fun x => (.ofAssign op, x)
  | .incDec x => [(.updated, x)]
  | .range key value _ _ _ => (key.toList ++ value.toList).map fun x => (.iterated, x)
  | _ => []

namespace Construct

section
variable {o : Role × Construct}

theorem role_of_mem_exprs {role : Role} {xs : List Expr} (h : o ∈ exprs role xs) : o.1 = role := by
  obtain ⟨x, -, rfl⟩ := List.mem_map.mp h
  rfl

theorem role_of_mem_stmts {ss : List Stmt} (h : o ∈ stmts ss) : o.1 = .value := by
  obtain ⟨s, -, rfl⟩ := List.mem_map.mp h
  rfl

theorem role_of_mem_signature {t : FuncType} (h : o ∈ signature t) : o.1 = .value := by
  simp only [signature, fields, List.mem_append] at h
  obtain (h | h) | h := h <;> exact role_of_mem_exprs h

theorem role_of_mem_clauses {cs : List Clause} (h : o ∈ cs.flatMap clause) : o.1 = .value := by
  obtain ⟨c, -, h⟩ := List.mem_flatMap.mp h
  cases c
  grind [clause, → role_of_mem_exprs, → role_of_mem_stmts]

theorem role_of_mem_specs {ss : List Spec} (h : o ∈ ss.flatMap spec) : o.1 = .value := by
  obtain ⟨s, -, h⟩ := List.mem_flatMap.mp h
  cases s <;> grind [spec, fields, → role_of_mem_exprs]

end

theorem mem_exprs {role role' : Role} {x : Expr} {xs : List Expr} :
    (role, expr x) ∈ exprs role' xs ↔ role = role' ∧ x ∈ xs := by
  simp [exprs, and_comm, eq_comm]

/-- Targets are parts of their statement. -/
theorem mem_stmtParts_of_targets {s : Stmt} {role : Role} {x : Expr} (h : (role, x) ∈ s.targets) :
    (role, expr x) ∈ stmtParts s := by
  cases s <;> grind [Stmt.targets, stmtParts, mem_exprs]

/-- Only statements assign, and brackets keep what is assigned. -/
theorem target_of_mem_parts {role : Role} {c : Construct} {o : Role × Construct}
    (ho : o.1 ≠ .value) (h : o ∈ c.parts role) :
    (∃ x, o = (role, expr x) ∧ c = expr (.paren x)) ∨
      ∃ s x, o.2 = expr x ∧ c = stmt s ∧ (o.1, x) ∈ s.targets := by
  cases c with
  | expr y =>
      cases y with
      | paren x => exact .inl ⟨x, List.mem_singleton.mp h, rfl⟩
      | _ =>
          refine absurd ?_ ho
          simp only [parts, exprParts, fields, List.mem_append] at h
          grind [→ role_of_mem_exprs, → role_of_mem_stmts, → role_of_mem_signature]
  | stmt s =>
      refine .inr ⟨s, ?_⟩
      cases s <;> simp only [parts, stmtParts, List.mem_append, List.not_mem_nil,
        List.mem_singleton] at h <;>
        grind [exprs, Stmt.targets, → role_of_mem_exprs, → role_of_mem_stmts, → role_of_mem_clauses,
          → role_of_mem_specs]

/-- What is assigned anywhere in a construct is the construct itself, or the target of a statement
in it. -/
theorem target_of_mem_occurrences {role role' : Role} {c : Construct} {y : Expr}
    (hrole : role ≠ .value) (hy : y.unparen = y) (hc : ∀ s, c = stmt s → role' = .value)
    (h : (role, expr y) ∈ c.occurrences role') :
    (∃ x, c = expr x ∧ role' = role ∧ x.unparen = y) ∨
      ∃ s x, (.value, stmt s) ∈ c.occurrences role' ∧ (role, x) ∈ s.targets ∧ x.unparen = y := by
  induction c using induction_on_parts generalizing role' with
  | step c ih =>
      obtain heq | ⟨p, hp, h⟩ := mem_occurrences.mp h
      · obtain ⟨rfl, rfl⟩ := Prod.mk.inj heq
        exact .inl ⟨y, rfl, rfl, hy⟩
      · have hstmt : ∀ s, p.2 = stmt s → p.1 = .value := by
          intro s hs
          by_contra hvalue
          obtain ⟨x, rfl, -⟩ | ⟨t, x, hx, -⟩ := target_of_mem_parts hvalue hp
          · cases hs
          · cases hs.symm.trans hx
        obtain ⟨x, hx, hp1, hunparen⟩ | ⟨s, x, hs, htarget, hunparen⟩ := ih role' p hp hstmt h
        · obtain ⟨z, rfl, rfl⟩ | ⟨s, z, hz, rfl, htarget⟩ := target_of_mem_parts (hp1 ▸ hrole) hp
          · cases hx
            exact .inl ⟨.paren x, rfl, hp1, hunparen⟩
          · cases hx.symm.trans hz
            refine .inr ⟨s, x, mem_occurrences.mpr (.inl ?_), hp1 ▸ htarget, hunparen⟩
            rw [hc s rfl]
        · exact .inr ⟨s, x, mem_occurrences.mpr (.inr ⟨p, hp, hs⟩), htarget, hunparen⟩

/-- What stands in brackets occurs in the role of the brackets. -/
theorem unparen_mem_occurrences {role role' : Role} {c : Construct} {x : Expr}
    (h : (role, expr x) ∈ c.occurrences role') : (role, expr x.unparen) ∈ c.occurrences role' := by
  fun_induction Expr.unparen x with
  | case1 inner ih => exact ih (mem_occurrences_of_part h List.mem_cons_self)
  | case2 x hx => exact h

end Construct

/-- All that occurs in a body. -/
def occurrencesIn (body : List Stmt) : List (Role × Construct) :=
  (Construct.stmt (.block body)).occurrences .value

theorem mem_occurrencesIn_iff_target {role : Role} (hrole : role ≠ .value) {body : List Stmt}
    {x : Expr} {sel : Ident} : (role, Construct.expr (.selector x sel)) ∈ occurrencesIn body ↔
      ∃ s e, (.value, Construct.stmt s) ∈ occurrencesIn body ∧ (role, e) ∈ s.targets ∧
        e.unparen = .selector x sel := by
  constructor
  · intro h
    obtain ⟨y, hy, -⟩ | h := Construct.target_of_mem_occurrences hrole rfl (fun _ _ => rfl) h
    · cases hy
    · exact h
  · rintro ⟨s, e, hs, htarget, hunparen⟩
    have hpart := Construct.mem_occurrences_of_part hs (Construct.mem_stmtParts_of_targets htarget)
    rw [← hunparen]
    exact Construct.unparen_mem_occurrences hpart

end Ripple.Go
