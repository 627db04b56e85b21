import Ripple.Java.Extract
import Mathlib.Data.List.Forall2

/-!
# Ripple.Proofs.Java.Occurrence

Every construct of a method body, at any depth, with what becomes of it.

`Tree.parts` lists the immediate parts of a construct, each with its `Place`: its value is used, it
is assigned, or the analysis does not look at it.  `Tree.occurrences` is the closure of that: a
construct and all that occurs in it, each occurrence once, in source order.  What the analysis finds
in a body and which variables it finds declared are both sums over the occurrences:

* `eventsAt_eq`: the events of a tree are the events that its occurrences have by themselves, in the
  same order, and what is overlooked has none;
* `locals_eq`: the locals of a tree are the variables that its occurrences declare by themselves,
  overlooked or not.

Both follow from what one construct adds to its parts, one case for each kind of construct.
-/

namespace Ripple.Java

/-- What becomes of a construct in a body. -/
inductive Place where
  | value
  /-- It is assigned. -/
  | target
  /-- The analysis does not look at it. -/
  | overlooked
  deriving DecidableEq, Repr

/-- A place inside another one; nothing is found in what is overlooked. -/
def Place.inside : Place → Place → Place
  | .overlooked, _ => .overlooked
  | _, q => q

@[simp] theorem Place.overlooked_inside (q : Place) :
    Place.inside .overlooked q = .overlooked := rfl

theorem Place.inside_of_ne {p : Place} (h : p ≠ .overlooked) (q : Place) : p.inside q = q := by
  cases p with
  | overlooked => exact absurd rfl h
  | value | target => rfl

/-- What happens to a field in a place that the analysis looks at. -/
def Place.event (p : Place) (a : Access) : Event := if p = .target then .write a else .read a

namespace Tree

/-! ## occurrences -/

/-- The name that a declaration of a variable has as a part of its own: that of a resource. -/
def declared : Binder → String → List Tree
  | .resource line, id => [.name .declaration id line]
  | _, _ => []

/-- The immediate parts of a construct in a place, in source order.  Overlooked are the qualifier of
a method reference, the outer object of a creation or of a constructor call, and the record pattern
of a type test. -/
def parts (p : Place) : Tree → List (Place × Tree)
  | .name .. | .jump => []
  | .select object _ _ => [(p.inside .value, object)]
  | .invoke object _ _ args => (object.toList ++ args).map (p.inside .value, ·)
  | .create outer _ _ args body =>
    outer.toList.map (.overlooked, ·) ++ (args ++ body).map (p.inside .value, ·)
  | .delegate _ outer _ args =>
    outer.toList.map (.overlooked, ·) ++ args.map (p.inside .value, ·)
  | .assign target value => [(p.inside .target, target), (p.inside .value, value)]
  | .update target => [(p.inside .target, target)]
  | .paren inner => [(p, inner)]
  | .variable binder id value => (declared binder id ++ value.toList).map (p.inside .value, ·)
  | .lambda _ body => [(p.inside .value, body)]
  | .typeTest value _ pattern => (p.inside .value, value) :: pattern.toList.map (.overlooked, ·)
  | .methodReference qualifier => qualifier.toList.map (.overlooked, ·)
  | .labelled _ body => [(p.inside .value, body)]
  | .group _ parts => parts.map (p.inside .value, ·)

theorem sizeOf_lt_of_mem_declared {binder : Binder} {id : String} {t : Tree}
    (h : t ∈ declared binder id) (value : Option Tree) :
    sizeOf t < sizeOf (Tree.variable binder id value) := by
  cases binder with
  | resource line =>
      cases List.mem_singleton.mp h
      cases value <;> simp <;> omega
  | _ => simp [declared] at h

theorem sizeOf_lt_of_mem_parts {p : Place} {t : Tree} {c : Place × Tree} (h : c ∈ t.parts p) :
    sizeOf c.2 < sizeOf t := by
  have hlist : ∀ {u : Tree} {ts : List Tree}, u ∈ ts → sizeOf u < sizeOf ts := List.sizeOf_lt_of_mem
  have hdeclared := @sizeOf_lt_of_mem_declared
  cases t <;>
    simp only [parts, List.mem_map, List.mem_append, List.mem_cons, List.not_mem_nil,
      Option.mem_toList, or_false] at h <;>
    grind

/-- A construct and all that occurs in it, each occurrence once, in source order. -/
def occurrences (p : Place) (t : Tree) : List (Place × Tree) :=
  (p, t) :: (t.parts p).attach.flatMap fun ⟨c, _⟩ => c.2.occurrences c.1
termination_by sizeOf t
decreasing_by exact sizeOf_lt_of_mem_parts ‹_›

theorem occurrences_eq (p : Place) (t : Tree) :
    t.occurrences p = (p, t) :: (t.parts p).flatMap fun c => c.2.occurrences c.1 := by
  rw [occurrences, List.flatMap_subtype (fun _ _ => rfl), List.unattach_attach]

/-- What holds of a construct whenever it holds of its parts holds of all. -/
theorem induction_on_parts {motive : Tree → Prop}
    (step : ∀ t, (∀ p, ∀ c ∈ t.parts p, motive c.2) → motive t) (t : Tree) : motive t :=
  step t fun _ c _ => induction_on_parts step c.2
termination_by sizeOf t
decreasing_by exact sizeOf_lt_of_mem_parts ‹_›

/-! ## what a construct adds to its parts -/

/-- The variables that a construct declares by itself; those of patterns are not among them. -/
def binders : Tree → List String
  | .variable _ id _ => [id]
  | .lambda parameters _ => parameters
  | .typeTest _ binding _ => binding.toList
  | _ => []

/-- The call that a construct is: an invocation, a creation, or a call of another constructor of the
class that declares the method. -/
def call? (className : String) : Tree → Option Call
  | .invoke _ method line args => some ⟨method, args.length, line⟩
  | .create _ type line args _ => some ⟨simpleTypeName type, args.length, line⟩
  | .delegate true _ line args => some ⟨className, args.length, line⟩
  | _ => none

/-- The access that a construct is: the selection of a field, or a bare name that means one. -/
def access? (s : BodyScope) : Tree → Option Access
  | .name _ id line => if s.isField id then some ⟨id, line⟩ else none
  | .select _ field line => some ⟨field, line⟩
  | _ => none

/-- What a construct in a place does by itself. -/
def own? (s : BodyScope) (p : Place) (t : Tree) : Option Event :=
  if p = .overlooked then none
  else ((t.call? s.className).map .call).or ((t.access? s).map p.event)

/-- What a tree in a place does. -/
def eventsAt (s : BodyScope) (p : Place) (t : Tree) : List Event :=
  if p = .overlooked then [] else t.events s (decide (p = .target))

theorem eventsOf?_eq (s : BodyScope) (o : Option Tree) :
    eventsOf? s o = o.toList.flatMap (events s false) := by
  cases o with
  | none => rfl
  | some t => simp [eventsOf?]

theorem eventsOf_eq (s : BodyScope) (ts : List Tree) :
    eventsOf s ts = ts.flatMap (events s false) := by
  induction ts with
  | nil => rfl
  | cons t ts ih => rw [eventsOf, ih, List.flatMap_cons]

theorem localsOf?_eq (o : Option Tree) : localsOf? o = o.toList.flatMap locals := by
  cases o with
  | none => rfl
  | some t => simp [localsOf?]

theorem localsOf_eq (ts : List Tree) : localsOf ts = ts.flatMap locals := by
  induction ts with
  | nil => rfl
  | cons t ts ih => rw [localsOf, ih, List.flatMap_cons]

@[simp] theorem flatMap_events_declared (s : BodyScope) (binder : Binder) (id : String) :
    (declared binder id).flatMap (events s false) = s.declared binder id := by
  cases binder with
  | resource line => simp [declared, events, BodyScope.declared]
  | _ => rfl

@[simp] theorem flatMap_locals_declared (binder : Binder) (id : String) :
    (declared binder id).flatMap locals = [] := by
  cases binder with
  | resource line => simp [declared, locals]
  | _ => rfl

@[simp] theorem eventsAt_value (s : BodyScope) (t : Tree) :
    t.eventsAt s .value = t.events s false :=
  rfl

@[simp] theorem eventsAt_target (s : BodyScope) (t : Tree) :
    t.eventsAt s .target = t.events s true :=
  rfl

@[simp] theorem eventsAt_overlooked (s : BodyScope) (t : Tree) :
    t.eventsAt s .overlooked = [] := rfl

theorem eventsAt_of_ne {p : Place} (h : p ≠ .overlooked) (s : BodyScope) (t : Tree) :
    t.eventsAt s p = t.events s (decide (p = .target)) :=
  if_neg h

@[simp] theorem flatMap_eventsAt_overlooked (s : BodyScope) (ts : List Tree) :
    (ts.map (Place.overlooked, ·)).flatMap (fun c => c.2.eventsAt s c.1) = [] := by
  simp [List.flatMap_eq_nil_iff]

@[simp] theorem flatMap_eventsAt_value (s : BodyScope) (ts : List Tree) :
    (ts.map (Place.value, ·)).flatMap (fun c => c.2.eventsAt s c.1) =
      ts.flatMap (events s false) := by
  simp [List.flatMap_map]

/-- A construct adds its own event in front of those of its parts. -/
theorem eventsAt_step (s : BodyScope) (p : Place) (t : Tree) :
    t.eventsAt s p = (t.own? s p).toList ++ (t.parts p).flatMap fun c => c.2.eventsAt s c.1 := by
  by_cases hp : p = .overlooked
  · subst hp
    cases t <;> simp [own?, parts]
  · have hin := Place.inside_of_ne hp
    rw [own?, if_neg hp]
    cases t with
    | name role id line =>
        rw [eventsAt_of_ne hp]
        by_cases h : s.isField id <;>
          simp [events, BodyScope.bare, call?, access?, parts, h, Place.event]
    | delegate self outer line args =>
        rw [eventsAt_of_ne hp]
        cases self <;> simp [events, call?, access?, parts, eventsOf_eq, hin]
    | paren inner => simp [eventsAt_of_ne hp, events, call?, access?, parts]
    | _ =>
        rw [eventsAt_of_ne hp]
        simp [events, call?, access?, parts, eventsOf_eq, eventsOf?_eq, hin, Place.event]

/-- A construct adds its own variables in front of those of its parts. -/
theorem locals_step (p : Place) (t : Tree) :
    t.locals = t.binders ++ (t.parts p).flatMap fun c => c.2.locals := by
  cases t <;> simp [locals, binders, parts, localsOf_eq, localsOf?_eq, List.flatMap_map]

/-! ## sums over all occurrences -/

/-- What a tree does is what the constructs in it do by themselves. -/
theorem eventsAt_eq (s : BodyScope) (p : Place) (t : Tree) :
    t.eventsAt s p = (t.occurrences p).filterMap fun c => c.2.own? s c.1 := by
  induction t using induction_on_parts generalizing p with
  | step t ih =>
      rw [List.filterMap_eq_flatMap_toList, eventsAt_step, occurrences_eq, List.flatMap_cons,
        List.flatMap_assoc]
      congr 1
      refine List.flatMap_congr fun c hc => ?_
      rw [ih p c hc, List.filterMap_eq_flatMap_toList]

/-- The variables declared in a tree, wherever it stands. -/
theorem locals_eq (p : Place) (t : Tree) :
    t.locals = (t.occurrences p).flatMap fun c => c.2.binders := by
  induction t using induction_on_parts generalizing p with
  | step t ih =>
      rw [locals_step p, occurrences_eq, List.flatMap_cons, List.flatMap_assoc]
      congr 1
      exact List.flatMap_congr fun c hc => ih p c hc c.1

/-- A construct that is a call is no access. -/
theorem access?_of_call? {s : BodyScope} {t : Tree} {c : Call} (h : t.call? s.className = some c) :
    t.access? s = none := by
  cases t with
  | name | select => simp [call?] at h
  | _ => rfl

/-- The call that a construct in a place adds. -/
theorem own?_call? (s : BodyScope) (p : Place) (t : Tree) :
    (t.own? s p).bind Event.call? = if p ≠ .overlooked then t.call? s.className else none := by
  cases hcall : t.call? s.className with
  | some c => cases p <;> simp [own?, hcall, Event.call?]
  | none =>
      cases haccess : t.access? s <;> cases p <;>
        simp [own?, hcall, haccess, Place.event, Event.call?]

theorem own?_read? (s : BodyScope) (p : Place) (t : Tree) :
    (t.own? s p).bind Event.read? = if p = .value then t.access? s else none := by
  cases hcall : t.call? s.className with
  | some c => cases p <;> simp [own?, hcall, access?_of_call? hcall, Event.read?]
  | none =>
      cases haccess : t.access? s <;> cases p <;>
        simp [own?, hcall, haccess, Place.event, Event.read?]

theorem own?_write? (s : BodyScope) (p : Place) (t : Tree) :
    (t.own? s p).bind Event.write? = if p = .target then t.access? s else none := by
  cases hcall : t.call? s.className with
  | some c => cases p <;> simp [own?, hcall, access?_of_call? hcall, Event.write?]
  | none =>
      cases haccess : t.access? s <;> cases p <;>
        simp [own?, hcall, haccess, Place.event, Event.write?]

/-- What some constructs add of one kind of event: what those in certain places are of that kind. -/
theorem filterMap_own? {β : Type} {s : BodyScope} {kind : Event → Option β} {P : Place → Prop}
    [DecidablePred P] {f : Tree → Option β}
    (h : ∀ p t, (own? s p t).bind kind = if P p then f t else none) (cs : List (Place × Tree)) :
    (cs.filterMap fun c => c.2.own? s c.1).filterMap kind =
      (cs.filter (P ·.1)).filterMap fun c => f c.2 := by
  simp only [List.filterMap_filterMap, List.filterMap_filter, h, decide_eq_true_eq]

end Tree

/-! ## methods -/

namespace Method

variable (m : Method) (className : String) (fields : List String)

/-- Every construct of the body of a method, at any depth. -/
def occurrences : List (Place × Tree) := m.body.toList.flatMap (Tree.occurrences .value)

/-- The variables of a method: its parameters and all that its body declares other than in
patterns. -/
def binders : List String :=
  m.parameters.map (·.name) ++ m.occurrences.flatMap fun c => c.2.binders

/-- What decides the meaning of names in the body of a method. -/
def scope : BodyScope := ⟨className, fields, m.binders⟩

theorem locals_eq : Tree.localsOf? m.body = m.occurrences.flatMap fun c => c.2.binders := by
  unfold occurrences
  cases m.body with
  | none => rfl
  | some t => simp [Tree.localsOf?, Tree.locals_eq .value t]

theorem events_eq (s : BodyScope) :
    Tree.eventsOf? s m.body = m.occurrences.filterMap fun c => c.2.own? s c.1 := by
  unfold occurrences
  cases m.body with
  | none => rfl
  | some t => simp [Tree.eventsOf?, ← Tree.eventsAt_eq, Tree.eventsAt]

/-- The facts of a method, with its scope named. -/
theorem facts_eq : m.facts className fields =
    { name := m.name
      params := m.parameters.flatMap Parameter.signatureTypes
      returnType := m.returnType
      line := m.line
      calls := (m.occurrences.filter (·.1 ≠ .overlooked)).filterMap fun c => c.2.call? className
      reads := (m.occurrences.filter (·.1 = .value)).filterMap fun c =>
        c.2.access? (m.scope className fields)
      writes := (m.occurrences.filter (·.1 = .target)).filterMap fun c =>
        c.2.access? (m.scope className fields) } := by
  have hscope : BodyScope.mk className fields
      (m.parameters.map (·.name) ++ Tree.localsOf? m.body) = m.scope className fields := by
    rw [locals_eq]
    rfl
  simp only [facts, hscope, events_eq, Tree.filterMap_own? (Tree.own?_call? _),
    Tree.filterMap_own? (Tree.own?_read? _), Tree.filterMap_own? (Tree.own?_write? _)]
  rfl

end Method

/-! ## types and their methods -/

namespace TypeDecl

/-- The name of a type. -/
def name : TypeDecl → String
  | .mk name _ _ _ _ => name

/-- The members of a type. -/
def members : TypeDecl → List Member
  | .mk _ _ _ _ members => members

/-- The methods and constructors that a type declares directly. -/
def methods (d : TypeDecl) : List Method := d.members.filterMap Member.method?

/-- The fields that are visible in a type when some are visible around it. -/
def visible (d : TypeDecl) (outer : List String) : List String := outer ++ d.fieldFacts.map (·.name)

/-- A type is another one, or is nested in it as a member, at any depth. -/
inductive Within (d : TypeDecl) : TypeDecl → Prop where
  | self : Within d d
  | nested {e f : TypeDecl} (hmember : .nested e ∈ f.members) (h : Within d e) : Within d f

theorem ownFacts_methods (d : TypeDecl) (outer : List String) :
    (d.ownFacts outer).methods = d.methods.map fun m => m.facts d.name (d.visible outer) := by
  cases d
  rfl

theorem facts_subset_nestedFacts {e : TypeDecl} {ms : List Member} (h : .nested e ∈ ms)
    (visible : List String) : e.facts visible ⊆ Member.nestedFacts visible ms := by
  induction ms with
  | nil => simp at h
  | cons m ms ih =>
      cases m with
      | nested d =>
          rw [Member.nestedFacts]
          cases List.mem_cons.mp h with
          | inl heq =>
              cases heq
              exact List.subset_append_left _ _
          | inr hmem => exact List.Subset.trans (ih hmem) (List.subset_append_right _ _)
      | _ =>
          rw [Member.nestedFacts]
          · exact ih (by simpa using h)
          · simp

/-- A type that is nested in another one has its facts among those of the other. -/
theorem Within.exists_ownFacts {d e : TypeDecl} (h : d.Within e) (outer : List String) :
    ∃ around, d.ownFacts around ∈ e.facts outer := by
  induction h generalizing outer with
  | self =>
      cases d
      exact ⟨outer, List.mem_cons_self⟩
  | @nested e f hmember h ih =>
      obtain ⟨around, hmem⟩ := ih (f.visible outer)
      refine ⟨around, ?_⟩
      cases f
      exact List.mem_cons_of_mem _ (facts_subset_nestedFacts hmember _ hmem)

/-- The facts of the methods of a type that is nested anywhere in a compilation unit. -/
theorem Within.exists_facts {ds : List TypeDecl} {d e : TypeDecl} (h : d.Within e) (he : e ∈ ds) :
    ∃ around, d.ownFacts around ∈ unitFacts ds ∧
      List.Forall₂ (fun m f => f = m.facts d.name (d.visible around)) d.methods
        (d.ownFacts around).methods := by
  obtain ⟨around, hmem⟩ := h.exists_ownFacts []
  refine ⟨around, List.mem_flatMap.mpr ⟨e, he, hmem⟩, ?_⟩
  rw [ownFacts_methods, List.forall₂_map_right_iff]
  exact List.forall₂_same.mpr fun _ _ => rfl

end TypeDecl

end Ripple.Java
