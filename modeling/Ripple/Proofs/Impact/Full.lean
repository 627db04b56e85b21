import Ripple.Proofs.Impact.Query

/-!
# Ripple.Proofs.Impact.Full

Full questions are exact: when they succeed, and what their reports list.

For each question there is the set of affected methods as a predicate on nodes, said with edges only
(`FieldChain`, `MethodChain`), and a lemma that an unbounded question finds a list of just these
methods and reports on it (`fieldImpact_answer`, `methodImpact_answer`).  What stands in the report
then follows from what a report lists for any selection.
-/

namespace Ripple

namespace Graph

variable {g : Graph}

theorem upstream_or {P Q : NodeId → Prop} {m : NodeId} :
    g.Upstream (fun t => P t ∨ Q t) m ↔ g.Upstream P m ∨ g.Upstream Q m := by
  simp only [Upstream, or_and_right, exists_or]

end Graph

namespace Query

variable {g : Graph}

/-! ## fields -/

/-- The methods that access a field, and the overloads of such methods. -/
def Touches (g : Graph) (field m : NodeId) : Prop :=
  g.Accesses m field ∨ ∃ d, g.Accesses d field ∧ g.Overloads m d

/-- The methods that a change of a field affects: those that touch it, and all that reach them. -/
def FieldChain (g : Graph) (field m : NodeId) : Prop :=
  Touches g field m ∨ g.Upstream (Touches g field) m

theorem fieldImpact_eq (s : Scope) (fieldName className : String) :
    fieldImpact s fieldName className =
      withMember s.graph .field "fieldName" fieldName className
        s!"field {Text.quote fieldName} not found"
        s!"field {Text.quote fieldName} not found in class {Text.quote className}"
        (fun field type => do
          let direct := accessors s.graph [field]
          let directCallers ← callers s direct
          let variants := similar s.graph MethodView.isVariantOf direct
          let variantCallers ← callers s variants
          let chain := NodeId.setOf (direct ++ directCallers ++ variants ++ variantCallers)
          let files := NodeId.setOf (filesOf s.graph chain ++ s.graph.declaringFiles type)
          reportOn s ⟨"field", fieldName, className, ""⟩ type chain [field] files) := rfl

/-- An unbounded question about a field finds the methods that a change affects. -/
theorem fieldImpact_answer (hg : g.WellFormed) {fieldName className : String} {field type : NodeId}
    (h : Located g .field fieldName className field type) :
    ∃ chain, (∀ m, m ∈ chain ↔ FieldChain g field m) ∧
      (fieldImpact (.unbounded g) fieldName className).answer =
        .ok ⟨⟨"field", fieldName, className, ""⟩,
          assemble g (selection g type chain [field]), false⟩ := by
  let direct := accessors g [field]
  let variants := similar g MethodView.isVariantOf direct
  have hdirect : ∀ m, m ∈ direct ↔ g.Accesses m field := by
    intro m
    simp [direct, mem_accessors hg]
  have hvariants : ∀ m, m ∈ variants ↔ ∃ d, g.Accesses d field ∧ g.Overloads m d := by
    intro m
    simp only [variants, mem_variants hg, hdirect]
  obtain ⟨above, habove, hfound⟩ := callers_found hg hdirect
  obtain ⟨above', habove', hfound'⟩ := callers_found hg hvariants
  refine ⟨NodeId.setOf (direct ++ above ++ variants ++ above'), ?_, ?_⟩
  · intro m
    have hup : g.Upstream (Touches g field) m ↔ _ := Graph.upstream_or
    rw [FieldChain, hup, Touches, or_or_or_comm, ← habove m, ← habove' m]
    simp only [NodeId.mem_setOf, List.mem_append, or_assoc]
  · rw [fieldImpact_eq]
    exact (congrArg answer (withMember_of_located h _)).trans <| Yields.answer <|
      (hfound _).bind <| (hfound' _).bind reportOn_yields

/-- An unbounded question about a field is answered when the class declares the field. -/
theorem fieldImpact_isOk (hg : g.WellFormed) {fieldName className : String} :
    (∃ r, (fieldImpact (.unbounded g) fieldName className).answer = .ok r) ↔
      ∃ field type, Located g .field fieldName className field type := by
  constructor
  · rintro ⟨r, hr⟩
    rw [fieldImpact_eq] at hr
    exact exists_located hr
  · rintro ⟨field, type, h⟩
    obtain ⟨chain, -, hanswer⟩ := fieldImpact_answer hg h
    exact ⟨_, hanswer⟩

/-- What a report tells of a method that a type declares: the first line of the declaration, the
calls that stay in the chain, and the lines at which the field is read and written. -/
structure FieldMember (g : Graph) (fieldName : String) (field type m : NodeId) (e : MemberEntry) :
    Prop where
  name_eq : e.name = Signature.simpleName e.signature
  line_least : IsLeast {l | g.LinkedAt .contains type m l} e.line
  calls_nodup : (e.calls.map fun c => (c.signature, c.line)).Nodup
  mem_calls : ∀ c, c ∈ e.calls ↔ c.name = Signature.simpleName c.signature ∧
    ∃ callee, g.find? .method c.signature = some callee ∧ g.LinkedAt .calls m callee c.line ∧
      FieldChain g field callee
  reads_nodup : (e.reads.map (·.line)).Nodup
  mem_reads : ∀ x, x ∈ e.reads ↔ x.name = fieldName ∧ g.LinkedAt .reads m field x.line
  writes_nodup : (e.writes.map (·.line)).Nodup
  mem_writes : ∀ x, x ∈ e.writes ↔ x.name = fieldName ∧ g.LinkedAt .writes m field x.line

theorem fieldMember_of_isLeast (hg : g.WellFormed) {fieldName : String} {field type T m : NodeId}
    {chain : List NodeId} {line : Int} (hfield : g.find? .field fieldName = some field)
    (hchain : ∀ m, m ∈ chain ↔ FieldChain g field m) (hm : g.IsKind .method m)
    (hline : IsLeast {l | g.LinkedAt .contains T m l} line) :
    FieldMember g fieldName field T m
      (Assembly.member g (selection g type chain [field]) m line) := by
  have hfields : ∀ f, f ∈ (selection g type chain [field]).fields ↔ f = field := by simp
  constructor
  · exact Assembly.nameOf_method hm
  · exact hline
  · exact Assembly.nodup_callRefs hg _ m
  · intro c
    simp only [Assembly.member, Assembly.mem_callRefs hg, mem_selection_chain, hchain]
  · exact Assembly.nodup_fieldRefs_lines hg hfields hfield m .reads
  · intro x
    exact Assembly.mem_fieldRefs_single hg hfields hfield
  · exact Assembly.nodup_fieldRefs_lines hg hfields hfield m .writes
  · intro x
    exact Assembly.mem_fieldRefs_single hg hfields hfield

/-- **Field reports are exact**: an unbounded question about a field succeeds exactly when the class
declares the field.  Then the methods of the chain are listed in all places that declare them, each
once in a place, and nothing else is; and an entry tells what `FieldMember` says. -/
theorem fieldImpact_exact (hg : g.Built) (fieldName className : String) :
    ((∃ r, (fieldImpact (.unbounded g) fieldName className).answer = .ok r) ↔
      Text.isBlank fieldName = false ∧ Text.isBlank className = false ∧
        ∃ field type, g.find? .field fieldName = some field ∧
          g.find? .type className = some type ∧ g.Linked .hasField type field) ∧
    ∀ r, (fieldImpact (.unbounded g) fieldName className).answer = .ok r →
      ∃ field, g.find? .field fieldName = some field ∧ r.truncated = false ∧
        (∀ path typeName signature, (path, typeName, signature) ∈ memberKeys r.files ↔
          ∃ F T m, g.find? .file path = some F ∧ g.find? .type typeName = some T ∧
            g.find? .method signature = some m ∧ g.Linked .contains F T ∧
            g.Linked .contains T m ∧ FieldChain g field m) ∧
        (memberKeys r.files).Nodup ∧
        ∀ path typeName e, (path, typeName, e) ∈ membersOf r.files →
          ∃ T m, g.find? .type typeName = some T ∧ g.find? .method e.signature = some m ∧
            FieldMember g fieldName field T m e := by
  have hw := hg.wellFormed
  refine ⟨(fieldImpact_isOk hw).trans (exists_located_iff hw hw.mem_declaringTypes_field), ?_⟩
  intro r hr
  obtain ⟨field, type, h⟩ := (fieldImpact_isOk hw).mp ⟨r, hr⟩
  obtain ⟨chain, hchain, hanswer⟩ := fieldImpact_answer hw h
  obtain rfl := Except.ok.inj (hanswer.symm.trans hr)
  have htype := hw.isKind_of_find? h.type_found
  refine ⟨field, h.member_found, rfl, ?_, ?_, ?_⟩
  · intro path typeName signature
    exact mem_memberKeys_selection hw hchain
  · exact nodup_memberKeys hw (NodeId.nodup_setOf _) (selection_files_isKind hw htype _ _)
  · intro path typeName e he
    obtain ⟨F, -, T, m, line, hFT, -, hleast, -, rfl, rfl⟩ := (mem_membersOf_assemble hw).mp he
    obtain ⟨-, hT, hm⟩ := hw.isKind_of_contains_contains hFT ⟨line, hleast.1⟩
    refine ⟨T, m, ?_, ?_, fieldMember_of_isLeast hw h.member_found hchain hm hleast⟩
    · exact (Assembly.find?_eq_some_iff hw).mpr ⟨hT, (Assembly.nameOf_type hT).symm⟩
    · exact (Assembly.find?_eq_some_iff hw).mpr ⟨hm, rfl⟩

/-- The two getters are overloads of each other. -/
theorem getters_overloads : Graph.getters.Overloads 5 4 := by
  obtain ⟨-, -, -, hget, hgetInt, -⟩ := Graph.getters_find?
  exact ⟨"get(int)", "get()", hgetInt, hget, by decide, by decide⟩

/-- The caller of an overload of a getter is affected by a change of the field. -/
theorem getters_fieldImpact :
    Graph.getters.Built ∧ ∃ r, (fieldImpact (.unbounded Graph.getters) "x" "A").answer = .ok r ∧
      ("/A.java", "A", "run()") ∈ memberKeys r.files := by
  obtain ⟨hfile, htype, hfield, -, -, hrun⟩ := Graph.getters_find?
  obtain ⟨hFA, hAx, -, hArun, hreads, hcalls⟩ := Graph.getters_linked
  obtain ⟨hok, hexact⟩ := fieldImpact_exact Graph.getters_built "x" "A"
  obtain ⟨r, hr⟩ := hok.mpr ⟨by decide, by decide, 3, 2, hfield, htype, hAx⟩
  obtain ⟨field, hfield', -, hkeys, -⟩ := hexact r hr
  obtain rfl := Option.some.inj (hfield.symm.trans hfield')
  have htouches : Touches Graph.getters 3 5 := .inr ⟨4, .inl hreads, getters_overloads⟩
  refine ⟨Graph.getters_built, r, hr, (hkeys _ _ _).mpr ?_⟩
  exact ⟨1, 2, 6, hfile, htype, hrun, hFA, hArun, .inr ⟨5, htouches, .single hcalls⟩⟩

/-! ## methods -/

/-- Two methods access the same field. -/
def Shares (g : Graph) (method m : NodeId) : Prop :=
  ∃ f, g.Accesses method f ∧ g.Accesses m f

/-- The methods that a change of a method affects: the method with its callers and callees, the
methods that share a field with it and its overloads, both with their callers. -/
def MethodChain (g : Graph) (method m : NodeId) : Prop :=
  (m = method ∨ g.Upstream (· = method) m) ∨ g.Downstream (· = method) m ∨
    (Shares g method m ∨ g.Upstream (Shares g method) m) ∨
    (g.Overloads m method ∨ g.Upstream (g.Overloads · method) m)

theorem methodImpact_eq (s : Scope) (signature className : String) :
    methodImpact s signature className =
      withMember s.graph .method "methodSignature" signature className
        s!"method {Text.quote signature} not found"
        s!"method {Text.quote signature} not found in class {Text.quote className}"
        (fun method type => do
          let above ← callers s [method]
          let below ← callees s [method]
          let fields := NodeId.setOf
            (s.graph.successors method .reads ++ s.graph.successors method .writes)
          let sharing := accessors s.graph fields
          let sharingCallers ← callers s sharing
          let overloads := similar s.graph MethodView.isOverloadOf [method]
          let overloadCallers ← callers s overloads
          let chain := NodeId.setOf ([method] ++ above ++ below ++ sharing ++ sharingCallers ++
            overloads ++ overloadCallers)
          let files := NodeId.setOf (filesOf s.graph chain ++ s.graph.declaringFiles type)
          reportOn s ⟨"method", Signature.simpleName signature, className, signature⟩ type chain
            fields files) := rfl

/-- An unbounded question about a method finds the methods that a change affects. -/
theorem methodImpact_answer (hg : g.WellFormed) {signature className : String}
    {method type : NodeId} (h : Located g .method signature className method type) :
    ∃ chain fields, (∀ m, m ∈ chain ↔ MethodChain g method m) ∧
      (∀ f, f ∈ fields ↔ g.Accesses method f) ∧
      (methodImpact (.unbounded g) signature className).answer =
        .ok ⟨⟨"method", Signature.simpleName signature, className, signature⟩,
          assemble g (selection g type chain fields), false⟩ := by
  let fields := NodeId.setOf (g.successors method .reads ++ g.successors method .writes)
  let sharing := accessors g fields
  let overloads := similar g MethodView.isOverloadOf [method]
  have hfields : ∀ f, f ∈ fields ↔ g.Accesses method f := by
    intro f
    simp only [fields, NodeId.mem_setOf, List.mem_append, hg.mem_successors, Graph.Accesses]
  have hself : ∀ m, m ∈ [method] ↔ m = method := fun m => List.mem_singleton
  have hsharing : ∀ m, m ∈ sharing ↔ Shares g method m := by
    intro m
    simp only [sharing, mem_accessors hg, hfields, Shares]
  have hoverloads : ∀ m, m ∈ overloads ↔ g.Overloads m method := by
    intro m
    simp [overloads, mem_overloads hg]
  obtain ⟨above, habove, hfound⟩ := callers_found hg hself
  obtain ⟨below, hbelow, hfound₁⟩ := callees_found hg hself
  obtain ⟨above₂, habove₂, hfound₂⟩ := callers_found hg hsharing
  obtain ⟨above₃, habove₃, hfound₃⟩ := callers_found hg hoverloads
  refine ⟨NodeId.setOf ([method] ++ above ++ below ++ sharing ++ above₂ ++ overloads ++ above₃),
    fields, ?_, hfields, ?_⟩
  · intro m
    have hdown := hbelow m
    -- the target is a seed of both of its closures, so it stands in the union only once
    rw [MethodChain, ← habove m, ← habove₂ m, ← habove₃ m]
    simp only [NodeId.mem_setOf, List.mem_append, or_assoc, hself] at hdown ⊢
    grind
  · rw [methodImpact_eq]
    exact (congrArg answer (withMember_of_located h _)).trans <| Yields.answer <|
      (hfound _).bind <| (hfound₁ _).bind <| (hfound₂ _).bind <| (hfound₃ _).bind reportOn_yields

/-- An unbounded question about a method is answered when the class declares the method. -/
theorem methodImpact_isOk (hg : g.WellFormed) {signature className : String} :
    (∃ r, (methodImpact (.unbounded g) signature className).answer = .ok r) ↔
      ∃ method type, Located g .method signature className method type := by
  constructor
  · rintro ⟨r, hr⟩
    rw [methodImpact_eq] at hr
    exact exists_located hr
  · rintro ⟨method, type, h⟩
    obtain ⟨chain, fields, -, -, hanswer⟩ := methodImpact_answer hg h
    exact ⟨_, hanswer⟩

/-- **Method reports are exact**: an unbounded question about a method succeeds exactly when the
class declares the method.  Then the methods of the chain are listed in all places that declare
them and nothing else is, and the class has an entry in all files that contain it. -/
theorem methodImpact_exact (hg : g.Built) (signature className : String) :
    ((∃ r, (methodImpact (.unbounded g) signature className).answer = .ok r) ↔
      Text.isBlank signature = false ∧ Text.isBlank className = false ∧
        ∃ method type, g.find? .method signature = some method ∧
          g.find? .type className = some type ∧ g.Linked .contains type method) ∧
    ∀ r, (methodImpact (.unbounded g) signature className).answer = .ok r →
      ∃ method type, g.find? .method signature = some method ∧
        g.find? .type className = some type ∧
        (∀ path typeName key, (path, typeName, key) ∈ memberKeys r.files ↔
          ∃ F T m, g.find? .file path = some F ∧ g.find? .type typeName = some T ∧
            g.find? .method key = some m ∧ g.Linked .contains F T ∧
            g.Linked .contains T m ∧ MethodChain g method m) ∧
        (memberKeys r.files).Nodup ∧
        ∀ path F, g.find? .file path = some F → g.Linked .contains F type →
          ∃ f ∈ r.files, f.path = path ∧ ∃ t ∈ f.types, t.name = className := by
  have hw := hg.wellFormed
  refine ⟨(methodImpact_isOk hw).trans (exists_located_iff hw hw.mem_declaringTypes_method), ?_⟩
  intro r hr
  obtain ⟨method, type, h⟩ := (methodImpact_isOk hw).mp ⟨r, hr⟩
  obtain ⟨chain, fields, hchain, -, hanswer⟩ := methodImpact_answer hw h
  obtain rfl := Except.ok.inj (hanswer.symm.trans hr)
  obtain ⟨htype, hname⟩ := (Assembly.find?_eq_some_iff hw).mp h.type_found
  refine ⟨method, type, h.member_found, h.type_found, ?_, ?_, ?_⟩
  · intro path typeName key
    exact mem_memberKeys_selection hw hchain
  · exact nodup_memberKeys hw (NodeId.nodup_setOf _) (selection_files_isKind hw htype _ _)
  · intro path F hF hlink
    obtain ⟨-, rfl⟩ := (Assembly.find?_eq_some_iff hw).mp hF
    rw [← hname, ← Assembly.nameOf_type htype]
    exact exists_entry_selection hw chain fields hlink

/-- The caller of an overload is affected by a change of a getter, and the class has an entry. -/
theorem getters_methodImpact :
    Graph.getters.Built ∧ ∃ r,
      (methodImpact (.unbounded Graph.getters) "get()" "A").answer = .ok r ∧
        ("/A.java", "A", "run()") ∈ memberKeys r.files ∧
        ∃ f ∈ r.files, f.path = "/A.java" ∧ ∃ t ∈ f.types, t.name = "A" := by
  obtain ⟨hfile, htype, -, hget, -, hrun⟩ := Graph.getters_find?
  obtain ⟨hFA, -, hAget, hArun, -, hcalls⟩ := Graph.getters_linked
  obtain ⟨hok, hexact⟩ := methodImpact_exact Graph.getters_built "get()" "A"
  obtain ⟨r, hr⟩ := hok.mpr ⟨by decide, by decide, 4, 2, hget, htype, hAget⟩
  obtain ⟨method, type, hmethod, htype', hkeys, -, hentry⟩ := hexact r hr
  obtain rfl := Option.some.inj (hget.symm.trans hmethod)
  obtain rfl := Option.some.inj (htype.symm.trans htype')
  have hchain : MethodChain Graph.getters 4 6 :=
    .inr (.inr (.inr (.inr ⟨5, getters_overloads, .single hcalls⟩)))
  refine ⟨Graph.getters_built, r, hr, (hkeys _ _ _).mpr ?_, hentry "/A.java" 1 hfile hFA⟩
  exact ⟨1, 2, 6, hfile, htype, hrun, hFA, hArun, hchain⟩

end Query

end Ripple
