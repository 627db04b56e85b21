import Ripple.Proofs.Impact.Full

/-!
# Ripple.Proofs.Impact.Class

Questions about a class are exact: when there is an answer, and what the report lists.

Beside the members of the class and what touches them, a report on a class takes in the methods and
fields whose type texts show the name of the class (`MethodMentions`, `FieldMentions`), so its files
are also those of the types that declare such fields (`classSelection`).  When none of these is
there and nothing outside the class calls into it (`Unreferenced`), the answer is that nothing was
found.
-/

namespace Ripple

namespace Graph

variable {g : Graph}

/-! ## type texts -/

/-- A declared type of a field shows a name. -/
def FieldMentions (g : Graph) (name : String) (f : NodeId) : Prop :=
  ∃ key types, g.node? f = some ⟨f, .field key types⟩ ∧
    ∃ text ∈ types, name.toList <:+: text.toList

/-- The return type or a parameter type of a method shows a name. -/
def MethodMentions (g : Graph) (name : String) (m : NodeId) : Prop :=
  ∃ signature returnType parameterTypes,
    g.node? m = some ⟨m, .method signature returnType parameterTypes⟩ ∧
      (name.toList <:+: returnType.toList ∨
        ∃ text ∈ parameterTypes, name.toList <:+: text.toList)

/-- The nodes of a kind whose type texts show a name. -/
def mentioning (g : Graph) (kind : NodeKind) (name : String) : List NodeId :=
  ((g.nodesOfKind kind).filter (·.symbol.refersTo name)).map (·.id)

theorem WellFormed.mem_mentioning (hg : g.WellFormed) {kind : NodeKind} {name : String}
    {id : NodeId} :
    id ∈ g.mentioning kind name ↔ ∃ symbol, g.node? id = some ⟨id, symbol⟩ ∧ symbol.kind = kind ∧
      symbol.refersTo name = true := by
  simp only [mentioning, List.mem_map, List.mem_filter, nodesOfKind, Array.mem_toList_iff,
    beq_iff_eq]
  constructor
  · rintro ⟨n, ⟨⟨hn, hkind⟩, hrefers⟩, rfl⟩
    exact ⟨n.symbol, hg.node?_iff.mpr ⟨hn, rfl⟩, hkind, hrefers⟩
  · rintro ⟨symbol, hn, hkind, hrefers⟩
    exact ⟨_, ⟨⟨(hg.node?_iff.mp hn).1, hkind⟩, hrefers⟩, rfl⟩

theorem WellFormed.mem_mentioning_field (hg : g.WellFormed) {name : String} {f : NodeId} :
    f ∈ g.mentioning .field name ↔ g.FieldMentions name f := by
  rw [hg.mem_mentioning]
  constructor
  · rintro ⟨symbol, hn, hkind, hrefers⟩
    cases symbol with
    | field key types =>
        rw [Symbol.refersTo, fieldRefersTo, List.any_eq_true] at hrefers
        obtain ⟨text, htext, hshows⟩ := hrefers
        exact ⟨key, types, hn, text, htext, Text.contains_iff.mp hshows⟩
    | file _ _ | type _ _ | method _ _ _ => contradiction
  · rintro ⟨key, types, hn, text, htext, hshows⟩
    refine ⟨_, hn, rfl, ?_⟩
    exact List.any_eq_true.mpr ⟨text, htext, Text.contains_iff.mpr hshows⟩

theorem WellFormed.mem_mentioning_method (hg : g.WellFormed) {name : String} {m : NodeId} :
    m ∈ g.mentioning .method name ↔ g.MethodMentions name m := by
  rw [hg.mem_mentioning]
  have hshows : ∀ signature returnType parameterTypes,
      (Symbol.method signature returnType parameterTypes).refersTo name = true ↔
        name.toList <:+: returnType.toList ∨
          ∃ text ∈ parameterTypes, name.toList <:+: text.toList := by
    simp [Symbol.refersTo, MethodView.refersTo, Text.contains_iff]
  constructor
  · rintro ⟨symbol, hn, hkind, hrefers⟩
    cases symbol with
    | method signature returnType parameterTypes =>
        exact ⟨signature, returnType, parameterTypes, hn, (hshows _ _ _).mp hrefers⟩
    | file _ _ | type _ _ | field _ _ => contradiction
  · rintro ⟨signature, returnType, parameterTypes, hn, hmentions⟩
    exact ⟨_, hn, rfl, (hshows _ _ _).mpr hmentions⟩

theorem FieldMentions.isKind {name : String} {f : NodeId} (h : g.FieldMentions name f) :
    g.IsKind .field f := by
  obtain ⟨key, types, hn, -⟩ := h
  exact ⟨_, hn, rfl⟩

end Graph

namespace Query

variable {g : Graph}

/-! ## what a change of a class affects -/

/-- Some methods, and all that reach them. -/
def WithCallers (g : Graph) (P : NodeId → Prop) (m : NodeId) : Prop :=
  P m ∨ g.Upstream P m

/-- The methods that access a field of a class. -/
def AccessesFieldOf (g : Graph) (type m : NodeId) : Prop :=
  ∃ f, g.Linked .hasField type f ∧ g.Accesses m f

/-- The overloads of the methods of a class. -/
def OverloadsMethodOf (g : Graph) (type m : NodeId) : Prop :=
  ∃ d, g.Linked .contains type d ∧ g.Overloads m d

/-- The methods that a change of a class affects: its own with their callers and callees, those that
access its fields, those whose types show its name and the overloads of its own, all three with
their callers. -/
def ClassChain (g : Graph) (className : String) (type m : NodeId) : Prop :=
  WithCallers g (g.Linked .contains type) m ∨ g.Downstream (g.Linked .contains type) m ∨
    WithCallers g (AccessesFieldOf g type) m ∨ WithCallers g (g.MethodMentions className) m ∨
    WithCallers g (OverloadsMethodOf g type) m

/-- All that reaches a method of the class is one, and no type text shows the name of the class. -/
structure Unreferenced (g : Graph) (className : String) (type : NodeId) : Prop where
  not_called : ∀ m, g.Upstream (g.Linked .contains type) m → g.Linked .contains type m
  no_field : ∀ f, ¬ g.FieldMentions className f
  no_method : ∀ m, ¬ g.MethodMentions className m

/-! ## the sets that are found -/

/-- The methods that access a field of a class, as they are looked up. -/
def fieldAccessors (g : Graph) (type : NodeId) : List NodeId :=
  accessors g (g.successors type .hasField)

/-- The overloads of the methods of a class, as they are looked up. -/
def ownOverloads (g : Graph) (type : NodeId) : List NodeId :=
  similar g MethodView.isOverloadOf (g.successors type .contains)

/-- The fields of a class and those whose types show its name. -/
def classFields (g : Graph) (className : String) (type : NodeId) : List NodeId :=
  NodeId.setOf (g.successors type .hasField ++ g.mentioning .field className)

theorem mem_fieldAccessors (hg : g.WellFormed) {type m : NodeId} :
    m ∈ fieldAccessors g type ↔ AccessesFieldOf g type m := by
  simp only [fieldAccessors, mem_accessors hg, hg.mem_successors, AccessesFieldOf]

theorem mem_ownOverloads (hg : g.WellFormed) {type m : NodeId} :
    m ∈ ownOverloads g type ↔ OverloadsMethodOf g type m := by
  simp only [ownOverloads, mem_overloads hg, hg.mem_successors, OverloadsMethodOf]

theorem mem_classFields (hg : g.WellFormed) {className : String} {type f : NodeId} :
    f ∈ classFields g className type ↔
      g.Linked .hasField type f ∨ g.FieldMentions className f := by
  simp only [classFields, NodeId.mem_setOf, List.mem_append, hg.mem_successors,
    hg.mem_mentioning_field]

/-- What the closures of a question about a class find: the callers and the callees of its methods,
and the callers of the methods that access its fields, that show its name and that overload its
own. -/
structure ClassClosures where
  above : List NodeId
  below : List NodeId
  aboveAccessors : List NodeId
  aboveMentions : List NodeId
  aboveOverloads : List NodeId

namespace ClassClosures

/-- All methods that a question about a class finds. -/
def chain (c : ClassClosures) (g : Graph) (className : String) (type : NodeId) : List NodeId :=
  NodeId.setOf (g.successors type .contains ++ c.above ++ c.below ++ fieldAccessors g type ++
    c.aboveAccessors ++ g.mentioning .method className ++ c.aboveMentions ++ ownOverloads g type ++
    c.aboveOverloads)

/-- Nothing refers to the class from outside. -/
def isBarren (c : ClassClosures) (g : Graph) (className : String) : Bool :=
  c.above.isEmpty && (g.mentioning .field className).isEmpty &&
    (g.mentioning .method className).isEmpty

/-- The closures are whole. -/
structure Whole (c : ClassClosures) (g : Graph) (className : String) (type : NodeId) : Prop where
  mem_above : ∀ m, m ∈ c.above ↔
    ¬ g.Linked .contains type m ∧ g.Upstream (g.Linked .contains type) m
  mem_below : ∀ m, m ∈ g.successors type .contains ∨ m ∈ c.below ↔
    g.Linked .contains type m ∨ g.Downstream (g.Linked .contains type) m
  mem_aboveAccessors : ∀ m, m ∈ fieldAccessors g type ∨ m ∈ c.aboveAccessors ↔
    WithCallers g (AccessesFieldOf g type) m
  mem_aboveMentions : ∀ m, m ∈ g.mentioning .method className ∨ m ∈ c.aboveMentions ↔
    WithCallers g (g.MethodMentions className) m
  mem_aboveOverloads : ∀ m, m ∈ ownOverloads g type ∨ m ∈ c.aboveOverloads ↔
    WithCallers g (OverloadsMethodOf g type) m

namespace Whole

variable {c : ClassClosures} {className : String} {type : NodeId}

theorem mem_chain (h : c.Whole g className type) (hg : g.WellFormed) (m : NodeId) :
    m ∈ c.chain g className type ↔ ClassChain g className type m := by
  have hup := h.mem_above m
  have hdown := h.mem_below m
  rw [ClassChain, WithCallers, ← h.mem_aboveAccessors, ← h.mem_aboveMentions,
    ← h.mem_aboveOverloads]
  simp only [chain, NodeId.mem_setOf, List.mem_append, or_assoc, hg.mem_successors] at hup hdown ⊢
  grind

/-- There are no callers from outside and no mentions exactly when nothing refers to the class. -/
theorem isBarren_iff (h : c.Whole g className type) (hg : g.WellFormed) :
    c.isBarren g className = true ↔ Unreferenced g className type := by
  simp only [isBarren, Bool.and_eq_true, List.isEmpty_iff, List.eq_nil_iff_forall_not_mem,
    h.mem_above, hg.mem_mentioning_field, hg.mem_mentioning_method]
  constructor
  · rintro ⟨⟨hcalled, hfield⟩, hmethod⟩
    refine ⟨?_, hfield, hmethod⟩
    intro m hm
    by_contra hout
    exact hcalled m ⟨hout, hm⟩
  · rintro ⟨hcalled, hfield, hmethod⟩
    exact ⟨⟨fun m hm => hm.1 (hcalled m hm.2), hfield⟩, hmethod⟩

end Whole

end ClassClosures

/-! ## the answer -/

/-- What a report on a class is assembled from: beside the files that declare the affected methods
or the class, those of the types that declare a field whose type shows the name. -/
def classSelection (g : Graph) (type : NodeId) (chain fields typedFields : List NodeId) :
    Selection :=
  { selection g type chain fields with
    files := NodeId.setOf (filesOf g chain ++ g.declaringFiles type ++ filesOf g typedFields) }

/-- The text of the answer when nothing refers to a class. -/
def noReferences (className : String) : Failure :=
  .coded Code.notFound s!"no references found for class {Text.quote className}"

theorem classImpact_eq (s : Scope) (className : String) :
    classImpact s className = withKey s.graph .type "className" className
      s!"class {Text.quote className} not found" (fun type => do
        let above ← callers s (s.graph.successors type .contains)
        let below ← callees s (s.graph.successors type .contains)
        let aboveAccessors ← callers s (fieldAccessors s.graph type)
        let aboveMentions ← callers s (s.graph.mentioning .method className)
        let aboveOverloads ← callers s (ownOverloads s.graph type)
        let c : ClassClosures := ⟨above, below, aboveAccessors, aboveMentions, aboveOverloads⟩
        if c.isBarren s.graph className then throw (noReferences className)
        let chain := c.chain s.graph className type
        let typedFields := s.graph.mentioning .field className
        let files := NodeId.setOf (filesOf s.graph chain ++ s.graph.declaringFiles type ++
          filesOf s.graph typedFields)
        reportOn s ⟨"class", className, className, ""⟩ type chain
          (classFields s.graph className type) files) := rfl

/-- A question about a class that exists is answered from what its five closures find, one after the
other, under any cap. -/
theorem classImpact_of_closures {s : Scope} {className : String} {type : NodeId}
    (h : Text.isBlank className = false ∧ s.graph.find? .type className = some type)
    (c : ClassClosures) {t₁ t₂ t₃ t₄ t₅ : Bool}
    (h₁ : Yields (callers s (s.graph.successors type .contains)) false c.above t₁)
    (h₂ : Yields (callees s (s.graph.successors type .contains)) t₁ c.below t₂)
    (h₃ : Yields (callers s (fieldAccessors s.graph type)) t₂ c.aboveAccessors t₃)
    (h₄ : Yields (callers s (s.graph.mentioning .method className)) t₃ c.aboveMentions t₄)
    (h₅ : Yields (callers s (ownOverloads s.graph type)) t₄ c.aboveOverloads t₅) :
    (classImpact s className).answer =
      if c.isBarren s.graph className then .error (noReferences className)
      else .ok ⟨⟨"class", className, className, ""⟩,
        assemble s.graph (classSelection s.graph type (c.chain s.graph className type)
          (classFields s.graph className type) (s.graph.mentioning .field className)), t₅⟩ := by
  rw [classImpact_eq]
  refine (congrArg answer (withKey_of_found h _)).trans ?_
  cases hbarren : c.isBarren s.graph className with
  | true =>
      exact Throws.answer <| h₁.throws <| h₂.throws <| h₃.throws <| h₄.throws <| h₅.throws <|
        throws_of_cond hbarren
  | false =>
      exact Yields.answer <| h₁.bind <| h₂.bind <| h₃.bind <| h₄.bind <| h₅.bind <|
        .of_not hbarren reportOn_yields

/-- An unbounded question about a class that exists finds the affected methods and fields, unless
nothing refers to the class. -/
theorem classImpact_answer (hg : g.WellFormed) {className : String}
    (hname : Text.isBlank className = false) {type : NodeId}
    (htype : g.find? .type className = some type) :
    (Unreferenced g className type ∧
      (classImpact (.unbounded g) className).answer = .error (noReferences className)) ∨
    (¬ Unreferenced g className type ∧
      ∃ chain fields typedFields, (∀ m, m ∈ chain ↔ ClassChain g className type m) ∧
        (∀ f, f ∈ fields ↔ g.Linked .hasField type f ∨ g.FieldMentions className f) ∧
        (∀ f, f ∈ typedFields ↔ g.FieldMentions className f) ∧
        (classImpact (.unbounded g) className).answer =
          .ok ⟨⟨"class", className, className, ""⟩,
            assemble g (classSelection g type chain fields typedFields), false⟩) := by
  have hown : ∀ m, m ∈ g.successors type .contains ↔ g.Linked .contains type m :=
    fun m => hg.mem_successors
  obtain ⟨above, habove, hfound₁⟩ := outside_callers_found hg hown
  obtain ⟨below, hbelow, hfound₂⟩ := callees_found hg hown
  obtain ⟨access, haccess, hfound₃⟩ := callers_found hg fun m => mem_fieldAccessors hg
  obtain ⟨mentions, hmentions, hfound₄⟩ := callers_found hg fun m => hg.mem_mentioning_method
  obtain ⟨overloads, hoverloads, hfound₅⟩ := callers_found hg fun m => mem_ownOverloads hg
  let c : ClassClosures := ⟨above, below, access, mentions, overloads⟩
  have hwhole : c.Whole g className type := ⟨habove, hbelow, haccess, hmentions, hoverloads⟩
  have hanswer := classImpact_of_closures (s := .unbounded g) ⟨hname, htype⟩ c (hfound₁ _)
    (hfound₂ _) (hfound₃ _) (hfound₄ _) (hfound₅ _)
  by_cases hunref : Unreferenced g className type
  · exact .inl ⟨hunref, hanswer.trans (if_pos ((hwhole.isBarren_iff hg).mpr hunref))⟩
  · refine .inr ⟨hunref, _, _, _, hwhole.mem_chain hg, fun f => mem_classFields hg,
      fun f => hg.mem_mentioning_field, hanswer.trans (if_neg ?_)⟩
    exact mt (hwhole.isBarren_iff hg).mp hunref

/-! ## the report -/

@[simp] theorem mem_classSelection_chain {type m : NodeId}
    {chain fields typedFields : List NodeId} :
    m ∈ (classSelection g type chain fields typedFields).chain ↔ m ∈ chain := by
  simp [classSelection]

@[simp] theorem mem_classSelection_fields {type f : NodeId}
    {chain fields typedFields : List NodeId} :
    f ∈ (classSelection g type chain fields typedFields).fields ↔ f ∈ fields := by
  simp [classSelection]

theorem mem_classSelection_files {type F : NodeId} {chain fields typedFields : List NodeId} :
    F ∈ (classSelection g type chain fields typedFields).files ↔
      F ∈ (selection g type chain fields).files ∨
        ∃ f ∈ typedFields, ∃ T ∈ g.declaringTypes f, F ∈ g.declaringFiles T := by
  simp [classSelection, selection, filesOf, or_assoc]

theorem classSelection_covers (hg : g.WellFormed) (type : NodeId)
    (chain fields typedFields : List NodeId) :
    (classSelection g type chain fields typedFields).Covers g := by
  intro F T m hFT hTm hm
  exact mem_classSelection_files.mpr (.inl (selection_covers hg type chain fields F T m hFT hTm hm))

theorem classSelection_files_isKind (hg : g.WellFormed) {type : NodeId}
    (htype : g.IsKind .type type) (chain fields typedFields : List NodeId) :
    ∀ F ∈ (classSelection g type chain fields typedFields).files, g.IsKind .file F := by
  intro F hF
  rcases mem_classSelection_files.mp hF with hF | ⟨f, -, T, hT, hF⟩
  · exact selection_files_isKind hg htype chain fields F hF
  · exact hg.isKind_of_contains_type (hg.mem_declaringFiles.mp hF)
      (hg.isKind_of_mem_declaringTypes hT)

/-- A type that declares a field whose type shows the name has an entry with the field. -/
theorem exists_mention_entry (hg : g.WellFormed) {className : String} {type F T f : NodeId}
    {line : Int} {chain fields typedFields : List NodeId}
    (hfields : ∀ f, f ∈ fields ↔ g.Linked .hasField type f ∨ g.FieldMentions className f)
    (htyped : ∀ f, f ∈ typedFields ↔ g.FieldMentions className f)
    (hFT : g.Linked .contains F T) (hTf : g.LinkedAt .hasField T f line)
    (hf : g.FieldMentions className f) :
    ∃ file ∈ assemble g (classSelection g type chain fields typedFields),
      file.path = Assembly.keyOf g F ∧ ∃ t ∈ file.types, t.name = Assembly.nameOf g T ∧
        ⟨Assembly.nameOf g f, line⟩ ∈ t.fields := by
  have hT : T ∈ g.declaringTypes f := (hg.mem_declaringTypes_field hf.isKind).mpr ⟨line, hTf⟩
  have hfile : F ∈ (classSelection g type chain fields typedFields).files :=
    mem_classSelection_files.mpr
      (.inr ⟨f, (htyped f).mpr hf, T, hT, hg.mem_declaringFiles.mpr hFT⟩)
  have hsel : f ∈ (classSelection g type chain fields typedFields).fields :=
    mem_classSelection_fields.mpr ((hfields f).mpr (.inr hf))
  exact exists_field_assemble hg hfile hFT hTf hsel

/-- An unbounded question about a class fails, with the code for what is not found, when there is no
such class or nothing refers to it. -/
theorem classImpact_eq_error (hg : g.WellFormed) {className : String}
    (hname : Text.isBlank className = false) :
    ((∃ e, (classImpact (.unbounded g) className).answer = .error e) ↔
      ∀ type, g.find? .type className = some type → Unreferenced g className type) ∧
    ∀ e, (classImpact (.unbounded g) className).answer = .error e → e.code = Code.notFound := by
  cases htype : g.find? .type className with
  | none =>
      have hanswer : (classImpact (.unbounded g) className).answer =
          .error (.coded Code.notFound s!"class {Text.quote className} not found") := by
        rw [answer_eq_error, classImpact_eq, withKey, require, hname]
        simp only [Scope.unbounded, htype]
        rfl
      refine ⟨iff_of_true ⟨_, hanswer⟩ (by simp), ?_⟩
      intro e he
      rw [← Except.error.inj (hanswer.symm.trans he)]
      rfl
  | some type =>
      simp only [Option.some.injEq, forall_eq']
      obtain ⟨hunref, hanswer⟩ | ⟨hunref, chain, fields, typedFields, -, -, -, hanswer⟩ :=
        classImpact_answer hg hname htype
      · refine ⟨iff_of_true ⟨_, hanswer⟩ hunref, ?_⟩
        intro e he
        rw [← Except.error.inj (hanswer.symm.trans he)]
        rfl
      · simp [hanswer, hunref]

/-- **Class reports are exact**: an unbounded question about a class fails, with the code for what
is not found, exactly when there is no such class, or all that reaches its methods is among them and
no type text shows its name.  Otherwise the methods of the chain are listed in all places that
declare them and nothing else is, and a type that declares a field whose type shows the name has an
entry in all files that contain it, with the field at each line of its declaration. -/
theorem classImpact_exact (hg : g.Built) {className : String}
    (hname : Text.isBlank className = false) :
    ((∃ e, (classImpact (.unbounded g) className).answer = .error e) ↔
      g.find? .type className = none ∨ ∃ type, g.find? .type className = some type ∧
        (∀ m, g.Upstream (g.Linked .contains type) m → g.Linked .contains type m) ∧
        (∀ f, ¬ g.FieldMentions className f) ∧ ∀ m, ¬ g.MethodMentions className m) ∧
    (∀ e, (classImpact (.unbounded g) className).answer = .error e → e.code = Code.notFound) ∧
    ∀ r, (classImpact (.unbounded g) className).answer = .ok r →
      ∃ type, g.find? .type className = some type ∧
        (∀ path typeName key, (path, typeName, key) ∈ memberKeys r.files ↔
          ∃ F T m, g.find? .file path = some F ∧ g.find? .type typeName = some T ∧
            g.find? .method key = some m ∧ g.Linked .contains F T ∧
            g.Linked .contains T m ∧ ClassChain g className type m) ∧
        (memberKeys r.files).Nodup ∧
        ∀ path typeName fieldName line F T f, g.find? .file path = some F →
          g.find? .type typeName = some T → g.find? .field fieldName = some f →
          g.Linked .contains F T → g.LinkedAt .hasField T f line → g.FieldMentions className f →
          ∃ file ∈ r.files, file.path = path ∧
            ∃ t ∈ file.types, t.name = typeName ∧ ⟨fieldName, line⟩ ∈ t.fields := by
  have hw := hg.wellFormed
  obtain ⟨herror, hcode⟩ := classImpact_eq_error hw hname
  refine ⟨herror.trans ?_, hcode, ?_⟩
  · cases g.find? .type className with
    | none => simp
    | some type =>
        simp only [Option.some.injEq, forall_eq', exists_eq_left', reduceCtorEq, false_or]
        exact ⟨fun h => ⟨h.not_called, h.no_field, h.no_method⟩, fun ⟨h, h', h''⟩ => ⟨h, h', h''⟩⟩
  · intro r hr
    have hfound : ∃ type, g.find? .type className = some type := by
      by_contra hnone
      obtain ⟨e, he⟩ := herror.mpr fun type htype => absurd ⟨type, htype⟩ hnone
      cases he.symm.trans hr
    obtain ⟨type, htype⟩ := hfound
    obtain ⟨-, hanswer⟩ | ⟨-, chain, fields, typedFields, hchain, hfields, htyped, hanswer⟩ :=
      classImpact_answer hw hname htype
    · cases hanswer.symm.trans hr
    · obtain rfl := Except.ok.inj (hanswer.symm.trans hr)
      have hkind := hw.isKind_of_find? htype
      refine ⟨type, htype, ?_, ?_, ?_⟩
      · intro path typeName key
        rw [mem_memberKeys hw (classSelection_covers hw type chain fields typedFields)]
        simp only [mem_classSelection_chain, hchain]
      · exact nodup_memberKeys hw (NodeId.nodup_setOf _)
          (classSelection_files_isKind hw hkind _ _ _)
      · intro path typeName fieldName line F T f hF hT hf hFT hTf hmentions
        obtain ⟨-, rfl⟩ := (Assembly.find?_eq_some_iff hw).mp hF
        obtain ⟨hTkind, rfl⟩ := (Assembly.find?_eq_some_iff hw).mp hT
        obtain ⟨hfkind, rfl⟩ := (Assembly.find?_eq_some_iff hw).mp hf
        rw [← Assembly.nameOf_type hTkind, ← Assembly.nameOf_field hfkind]
        exact exists_mention_entry hw hfields htyped hFT hTf hmentions

/-! ## a class that only a field mentions -/

/-- A class without members, and a class in a file that declares a field with a list of them. -/
def mentionFacts : List Operation :=
  [.fact (.file "B.java" "/B.java"), .fact (.type "A" ""), .fact (.type "B" ""),
    .fact (.field "as"), .fact (.fieldType 4 "List<A>"), .fact (.link .contains 1 3 1),
    .fact (.link .hasField 3 4 2)]

/-- The graph of these facts. -/
def mentionGraph : Graph := (Builder.after mentionFacts (Builder.new 0)).graph

section
open Ripple.Graph Builder

theorem mentionGraph_eq :
    mentionGraph.find? .file "/B.java" = some 1 ∧ mentionGraph.find? .type "A" = some 2 ∧
      mentionGraph.find? .type "B" = some 3 ∧ mentionGraph.find? .field "as" = some 4 ∧
      mentionGraph.node? 4 = some ⟨4, .field "as" ["List<A>"]⟩ ∧
      mentionGraph.edges.toList.map Edge.key = [⟨.contains, 1, 3, 1⟩, ⟨.hasField, 3, 4, 2⟩] := by
  simp [mentionGraph, mentionFacts, after, Operation.perform, ingest, run_map, upsertFile,
    upsertType, upsertField, setFieldType, run_bind, run_modify, upsert_run_of_new, expect_run,
    link_run, Builder.new, node?_insertNode, find?_insertNode, node?_update, Text.isBlank,
    Symbol.key, Symbol.kind, Text.isBlankChar, Node.kind, EdgeKind.joins, withFilePath,
    withFieldType, Edge.key]

end

/-- The report on the class shows the field in the class that declares it. -/
theorem mentionGraph_classImpact :
    mentionGraph.Built ∧ Text.isBlank "A" = false ∧
      ∃ r, (classImpact (.unbounded mentionGraph) "A").answer = .ok r ∧
        ∃ file ∈ r.files, file.path = "/B.java" ∧
          ∃ t ∈ file.types, t.name = "B" ∧ ⟨"as", 2⟩ ∈ t.fields := by
  obtain ⟨hfile, hA, hB, hfield, hnode, hedges⟩ := mentionGraph_eq
  have hbuilt : mentionGraph.Built := ⟨0, mentionFacts, rfl⟩
  have hname : Text.isBlank "A" = false := by decide
  have hFB : mentionGraph.Linked .contains 1 3 := ⟨1, Graph.linkedAt_iff_key.mpr (by simp [hedges])⟩
  have hBas : mentionGraph.LinkedAt .hasField 3 4 2 :=
    Graph.linkedAt_iff_key.mpr (by simp [hedges])
  have hmentions : mentionGraph.FieldMentions "A" 4 :=
    ⟨"as", ["List<A>"], hnode, "List<A>", List.mem_singleton_self _, by decide⟩
  obtain ⟨hfails, -, hexact⟩ := classImpact_exact hbuilt hname
  cases hanswer : (classImpact (.unbounded mentionGraph) "A").answer with
  | error e =>
      obtain habsent | ⟨-, -, -, hno, -⟩ := hfails.mp ⟨e, hanswer⟩
      · cases habsent.symm.trans hA
      · exact absurd hmentions (hno 4)
  | ok r =>
      obtain ⟨-, -, -, -, hentry⟩ := hexact r hanswer
      exact ⟨hbuilt, hname, r, rfl,
        hentry "/B.java" "B" "as" 2 1 3 4 hfile hB hfield hFB hBas hmentions⟩

end Query

end Ripple
