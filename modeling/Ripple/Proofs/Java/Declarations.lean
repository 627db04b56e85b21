import Ripple.Proofs.Java.Shadowing

/-!
# Ripple.Proofs.Java.Declarations

Which types of a compilation unit are recorded, and which fields are visible in their methods.

A declaration has a position: the indices of the declarations that lead to it from the top of the
unit, so that the lexicographic order of positions is the order in which a reader meets them, outer
types first.  The analysis threads the visible fields down through the types and appends what it
finds to one list; `unitFacts_in_preorder` says that the list is that of the positions, and that the
fields visible at each of them are those of the types on the way to it.  A component of a record
that takes any number of values is left out of the fields: `variadicRecord` is a source where that
loses an access.
-/

namespace Ripple.Java

/-! ## sites -/

/-- The type that a member declares. -/
def Member.nested? : Member → Option TypeDecl
  | .nested d => some d
  | _ => none

theorem Member.nested?_eq_some_iff {m : Member} {d : TypeDecl} :
    m.nested? = some d ↔ m = .nested d := by
  cases m <;> simp [nested?]

/-- A type declaration with its position and the declarations around it, outermost first. -/
structure Site where
  position : List Nat
  around : List TypeDecl
  decl : TypeDecl

namespace Site

/-- The declarations whose fields are in scope: those around it, and itself. -/
def scope (s : Site) : List TypeDecl := s.around ++ [s.decl]

/-- A site in the declaration with an index, seen from outside. -/
def below (outer : List TypeDecl) (j : Nat) (s : Site) : Site :=
  ⟨j :: s.position, outer ++ s.around, s.decl⟩

/-- A site comes before another one in the source. -/
def Before (s t : Site) : Prop := s.position < t.position

theorem before_below_iff {outer : List TypeDecl} {j : Nat} {s t : Site} :
    (s.below outer j).Before (t.below outer j) ↔ s.Before t := by
  simp [Before, below]

theorem before_below_of_lt {outer : List TypeDecl} {i j : Nat} (h : i < j) (s t : Site) :
    (s.below outer i).Before (t.below outer j) :=
  List.cons_lt_cons_iff.mpr (.inl h)

end Site

namespace TypeDecl

/-- The line of a type. -/
def line : TypeDecl → Nat
  | .mk _ _ line _ _ => line

/-- The components of a record. -/
def components : TypeDecl → List Parameter
  | .mk _ _ _ components _ => components

/-- The types that are members of a type, with their indices among the members. -/
def nested (d : TypeDecl) : List (TypeDecl × Nat) :=
  d.members.zipIdx.filterMap fun c => c.1.nested?.map (·, c.2)

theorem mem_nested {d : TypeDecl} {c : TypeDecl × Nat} :
    c ∈ d.nested ↔ d.members[c.2]? = some (.nested c.1) := by
  obtain ⟨e, j⟩ := c
  simp [nested, List.mem_zipIdx_iff_getElem?, Member.nested?_eq_some_iff]

theorem pairwise_nested (d : TypeDecl) : d.nested.Pairwise fun a b => a.2 < b.2 := by
  refine List.pairwise_filterMap.mpr ((pairwise_zipIdx d.members).imp ?_)
  intro a b hlt c hc e he
  obtain ⟨d, -, rfl⟩ := Option.map_eq_some_iff.mp hc
  obtain ⟨f, -, rfl⟩ := Option.map_eq_some_iff.mp he
  exact hlt

theorem sizeOf_lt_of_mem_nested {d : TypeDecl} {c : TypeDecl × Nat} (h : c ∈ d.nested) :
    sizeOf c.1 < sizeOf d := by
  have hmember := List.sizeOf_lt_of_mem (List.mem_of_getElem? (mem_nested.mp h))
  cases d
  simp only [members, Member.nested.sizeOf_spec, mk.sizeOf_spec] at hmember ⊢
  omega

/-- What holds of a type whenever it holds of its member types holds of all. -/
theorem induction_on_nested {motive : TypeDecl → Prop}
    (step : ∀ d, (∀ c ∈ d.nested, motive c.1) → motive d) (d : TypeDecl) : motive d :=
  step d fun c _ => induction_on_nested step c.1
termination_by sizeOf d
decreasing_by exact sizeOf_lt_of_mem_nested ‹_›

/-- A type and the types nested in it, each once, outer types first. -/
def sites (d : TypeDecl) : List Site :=
  ⟨[], [], d⟩ :: d.nested.attach.flatMap fun ⟨c, _⟩ => c.1.sites.map (.below [d] c.2)
termination_by sizeOf d
decreasing_by exact sizeOf_lt_of_mem_nested ‹_›

theorem sites_eq (d : TypeDecl) :
    d.sites = ⟨[], [], d⟩ :: d.nested.flatMap fun c => c.1.sites.map (.below [d] c.2) := by
  rw [sites, List.flatMap_subtype (fun _ _ => rfl), List.unattach_attach]

/-- A type stands inside another one, at a position and with some declarations around it. -/
inductive Inside (d : TypeDecl) : TypeDecl → List Nat → List TypeDecl → Prop where
  | self : Inside d d [] []
  | nested {e f : TypeDecl} {j : Nat} {position : List Nat} {around : List TypeDecl}
      (hmember : f.members[j]? = some (.nested e)) (h : Inside d e position around) :
      Inside d f (j :: position) (f :: around)

/-- The sites of a type are the declarations that stand inside it. -/
theorem mem_sites {d : TypeDecl} {s : Site} :
    s ∈ d.sites ↔ s.decl.Inside d s.position s.around := by
  induction d using induction_on_nested generalizing s with
  | step d ih =>
      rw [sites_eq, List.mem_cons, List.mem_flatMap]
      constructor
      · rintro (rfl | ⟨c, hc, hs⟩)
        · exact .self
        · obtain ⟨t, ht, rfl⟩ := List.mem_map.mp hs
          exact .nested (mem_nested.mp hc) ((ih c hc).mp ht)
      · obtain ⟨position, around, e⟩ := s
        intro h
        cases h with
        | self => exact .inl rfl
        | @nested f _ j position around hmember h =>
            have hc : (f, j) ∈ d.nested := mem_nested.mpr hmember
            exact .inr ⟨(f, j), hc, List.mem_map.mpr ⟨⟨position, around, e⟩, (ih _ hc).mpr h, rfl⟩⟩

/-- Declarations with increasing indices, whose sites are in order, have their sites in order. -/
theorem pairwise_below {l : List (TypeDecl × Nat)} (outer : List TypeDecl)
    (hl : l.Pairwise fun a b => a.2 < b.2) (h : ∀ c ∈ l, c.1.sites.Pairwise Site.Before) :
    (l.flatMap fun c => c.1.sites.map (.below outer c.2)).Pairwise Site.Before := by
  refine List.pairwise_flatMap.mpr ⟨?_, hl.imp ?_⟩
  · intro c hc
    exact List.pairwise_map.mpr ((h c hc).imp Site.before_below_iff.mpr)
  · intro a b hlt s hs t ht
    obtain ⟨s, -, rfl⟩ := List.mem_map.mp hs
    obtain ⟨t, -, rfl⟩ := List.mem_map.mp ht
    exact Site.before_below_of_lt hlt s t

theorem pairwise_sites (d : TypeDecl) : d.sites.Pairwise Site.Before := by
  induction d using induction_on_nested with
  | step d ih =>
      rw [sites_eq, List.pairwise_cons]
      refine ⟨?_, pairwise_below [d] d.pairwise_nested ih⟩
      intro s hs
      obtain ⟨c, -, hs⟩ := List.mem_flatMap.mp hs
      obtain ⟨t, -, rfl⟩ := List.mem_map.mp hs
      exact List.nil_lt_cons _ _

/-! ## facts of sites -/

/-- The names of the fields of some types. -/
def fieldNames (ds : List TypeDecl) : List String :=
  ds.flatMap fun d => d.fieldFacts.map (·.name)

theorem nestedFacts_eq (visible : List String) (ms : List Member) :
    Member.nestedFacts visible ms = (ms.filterMap Member.nested?).flatMap (facts visible) := by
  induction ms with
  | nil => rfl
  | cons m ms ih =>
      cases m with
      | nested d => simp [Member.nestedFacts, Member.nested?, ih]
      | _ => simp [Member.nestedFacts, Member.nested?, List.filterMap_cons, ih]

theorem map_fst_nested (d : TypeDecl) :
    d.nested.map (·.1) = d.members.filterMap Member.nested? := by
  rw [nested, List.map_filterMap]
  conv_rhs => rw [← List.zipIdx_map_fst 0 d.members, List.filterMap_map]
  refine List.filterMap_congr fun c _ => ?_
  cases h : c.1.nested? <;> simp [h]

theorem facts_eq (d : TypeDecl) (outer : List String) :
    d.facts outer =
      d.ownFacts outer :: d.nested.flatMap fun c => c.1.facts (d.visible outer) := by
  have hnested := nestedFacts_eq (d.visible outer) d.members
  rw [← map_fst_nested, List.flatMap_map] at hnested
  rw [← hnested]
  cases d
  rfl

/-- The facts of a type are those of its sites, in order. -/
theorem facts_eq_sites (d : TypeDecl) (outer : List String) :
    d.facts outer = d.sites.map fun s => s.decl.ownFacts (outer ++ fieldNames s.around) := by
  induction d using induction_on_nested generalizing outer with
  | step d ih =>
      rw [facts_eq, sites_eq, List.map_cons, List.map_flatMap]
      congr 1
      · simp [fieldNames]
      · refine List.flatMap_congr fun c hc => ?_
        rw [ih c hc, List.map_map]
        refine List.map_congr_left fun s _ => ?_
        simp [Site.below, fieldNames, visible]

end TypeDecl

/-! ## fields -/

theorem Parameter.mem_filterMap_field?_iff {ps : List Parameter} {x : String} :
    x ∈ (ps.filterMap field?).map (·.name) ↔ ∃ p ∈ ps, p.spread = false ∧ p.name = x := by
  rw [List.map_filterMap, List.mem_filterMap]
  refine exists_congr fun p => and_congr_right fun _ => ?_
  cases h : p.spread <;> simp [field?, h]

/-- A member declares a field: a declared field, or a constant of an enum. -/
def Member.DeclaresField (x : String) : Member → Prop
  | .fields _ ds => ∃ d ∈ ds, d.name = x
  | .constant name .. => name = x
  | _ => False

theorem Member.mem_fieldFacts_iff {className x : String} {m : Member} :
    x ∈ (m.fieldFacts className).map (·.name) ↔ m.DeclaresField x := by
  cases m <;> simp [fieldFacts, DeclaresField, eq_comm]

namespace TypeDecl

/-- A type has a field: a component of a record, a constant of an enum or a declared field. -/
def HasField (d : TypeDecl) (x : String) : Prop :=
  (∃ p ∈ d.components, p.name = x) ∨ ∃ m ∈ d.members, m.DeclaresField x

/-- A type has a field that is not a component with any number of values. -/
def HasPlainField (d : TypeDecl) (x : String) : Prop :=
  (∃ p ∈ d.components, p.spread = false ∧ p.name = x) ∨ ∃ m ∈ d.members, m.DeclaresField x

theorem mem_fieldFacts_iff {d : TypeDecl} {x : String} :
    x ∈ d.fieldFacts.map (·.name) ↔ d.HasPlainField x := by
  obtain ⟨name, nameLine, line, ps, ms⟩ := d
  rw [fieldFacts, List.map_append, List.mem_append, List.map_flatMap, List.mem_flatMap,
    Parameter.mem_filterMap_field?_iff]
  simp only [Member.mem_fieldFacts_iff]
  rfl

theorem mem_fieldNames_iff {ds : List TypeDecl} {x : String} :
    x ∈ fieldNames ds ↔ ∃ d ∈ ds, d.HasPlainField x := by
  simp only [fieldNames, List.mem_flatMap, mem_fieldFacts_iff]

/-- All fields of some types are among the plain ones exactly when the components with any number of
values are. -/
theorem hasPlainField_iff_hasField {ds : List TypeDecl} :
    (∀ x, (∃ d ∈ ds, d.HasPlainField x) ↔ ∃ d ∈ ds, d.HasField x) ↔
      ∀ d ∈ ds, ∀ p ∈ d.components, p.spread = true → ∃ e ∈ ds, e.HasPlainField p.name := by
  constructor
  · intro h d hd p hp _
    exact (h p.name).mpr ⟨d, hd, .inl ⟨p, hp, rfl⟩⟩
  · intro h x
    constructor
    · rintro ⟨d, hd, ⟨p, hp, -, hname⟩ | hmember⟩
      · exact ⟨d, hd, .inl ⟨p, hp, hname⟩⟩
      · exact ⟨d, hd, .inr hmember⟩
    · rintro ⟨d, hd, ⟨p, hp, rfl⟩ | hmember⟩
      · cases hspread : p.spread with
        | false => exact ⟨d, hd, .inl ⟨p, hp, hspread, rfl⟩⟩
        | true => exact h d hd p hp hspread
      · exact ⟨d, hd, .inr hmember⟩

end TypeDecl

/-! ## compilation units -/

/-- The declarations of a compilation unit, each once, outer types first. -/
def unitSites (ds : List TypeDecl) : List Site :=
  ds.zipIdx.flatMap fun c => c.1.sites.map (.below [] c.2)

theorem mem_unitSites {ds : List TypeDecl} {s : Site} :
    s ∈ unitSites ds ↔ ∃ i d position,
      s.position = i :: position ∧ ds[i]? = some d ∧ s.decl.Inside d position s.around := by
  rw [unitSites, List.mem_flatMap]
  constructor
  · rintro ⟨⟨d, i⟩, hd, hs⟩
    obtain ⟨t, ht, rfl⟩ := List.mem_map.mp hs
    exact ⟨i, d, t.position, rfl, List.mem_zipIdx_iff_getElem?.mp hd, TypeDecl.mem_sites.mp ht⟩
  · obtain ⟨position, around, e⟩ := s
    rintro ⟨i, d, position, rfl, hd, h⟩
    exact ⟨(d, i), List.mem_zipIdx_iff_getElem?.mpr hd,
      List.mem_map.mpr ⟨⟨position, around, e⟩, TypeDecl.mem_sites.mpr h, rfl⟩⟩

theorem pairwise_unitSites (ds : List TypeDecl) : (unitSites ds).Pairwise Site.Before :=
  TypeDecl.pairwise_below [] (pairwise_zipIdx ds) fun c _ => c.1.pairwise_sites

theorem unitFacts_eq_sites (ds : List TypeDecl) :
    unitFacts ds = (unitSites ds).map fun s => s.decl.ownFacts (TypeDecl.fieldNames s.around) := by
  have hfirst := List.flatMap_map Prod.fst (TypeDecl.facts []) (l := ds.zipIdx)
  rw [List.zipIdx_map_fst] at hfirst
  rw [unitFacts, hfirst, unitSites, List.map_flatMap]
  refine List.flatMap_congr fun c _ => ?_
  rw [TypeDecl.facts_eq_sites, List.map_map]
  rfl

/-- **Recorded declarations**: what is recorded of a compilation unit are its declarations that are
at the top or are members of one another at any depth, each once and in the order of their
positions; each with its fields, and with its methods as they are when the visible fields are those
of the declaration and of the declarations around it, and of no other.  Components with any number
of values are not among these fields, so that all fields in scope are visible exactly when each such
component shares its name with a field that is. -/
theorem unitFacts_in_preorder (ds : List TypeDecl) :
    ∃ sites : List Site,
      (∀ s, s ∈ sites ↔ ∃ i d position,
        s.position = i :: position ∧ ds[i]? = some d ∧ s.decl.Inside d position s.around) ∧
      sites.Pairwise (fun s t => s.position < t.position) ∧
      List.Forall₂ (fun s c => c.name = s.decl.name ∧ c.line = s.decl.line ∧
        (∀ x, x ∈ c.fields.map (·.name) ↔ s.decl.HasPlainField x) ∧
        ∃ visible, c.methods = s.decl.methods.map (·.facts s.decl.name visible) ∧
          (∀ x, x ∈ visible ↔ ∃ d ∈ s.scope, d.HasPlainField x) ∧
          ((∀ x, x ∈ visible ↔ ∃ d ∈ s.scope, d.HasField x) ↔
            ∀ d ∈ s.scope, ∀ p ∈ d.components, p.spread = true → p.name ∈ visible))
        sites (unitFacts ds) := by
  refine ⟨unitSites ds, fun s => mem_unitSites, pairwise_unitSites ds, ?_⟩
  rw [unitFacts_eq_sites, List.forall₂_map_right_iff]
  refine List.forall₂_same.mpr fun s _ => ?_
  have hvisible : ∀ x, x ∈ s.decl.visible (TypeDecl.fieldNames s.around) ↔
      ∃ d ∈ s.scope, d.HasPlainField x := by
    intro x
    rw [← TypeDecl.mem_fieldNames_iff]
    simp [TypeDecl.visible, TypeDecl.fieldNames, Site.scope]
  refine ⟨?_, ?_, fun x => ?_, _, s.decl.ownFacts_methods _, hvisible, ?_⟩
  · cases s.decl
    rfl
  · cases s.decl
    rfl
  · rw [← TypeDecl.mem_fieldFacts_iff]
    cases s.decl
    rfl
  · simp only [hvisible]
    exact TypeDecl.hasPlainField_iff_hasField

/-- A record whose component takes any number of values. -/
def variadicRecord : String :=
  "record R(int... xs) \x7b int n() \x7b return xs.length; \x7d \x7d"

/-- The method reads the component, which no variable hides, and no such read is recorded. -/
theorem variadicRecord_component_lost :
    (∃ d ∈ parse variadicRecord, (∃ p ∈ d.components, p.name = "xs") ∧
      ∃ m ∈ d.methods, "xs" ∉ m.binders ∧
        ∃ c ∈ m.occurrences, c.1 = .value ∧ c.2.bare? = some "xs") ∧
      ∀ c ∈ unitFacts (parse variadicRecord), "xs" ∉ c.fields.map (·.name) ∧
        ∀ f ∈ c.methods, "xs" ∉ f.reads.map (·.name) := by
  decide +kernel

end Ripple.Java
