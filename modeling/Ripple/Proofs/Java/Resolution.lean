import Ripple.Proofs.Graph.Recording
import Ripple.Java.Ingest

/-!
# Ripple.Proofs.Java.Resolution

The graph of some Java facts says what the facts say, and nothing else.

Its nodes are the declared files, types, fields and methods; resolving calls and accesses adds none.
A method calls the methods that have the name and the number of parameters of one of its calls,
wherever they are declared, and accesses the fields that some type declares.

* `Kept.Covers` is the invariant of the table of methods, which has one method for each signature;
* `mentions` and `ties` list the nodes and edges of each part of the facts, and the `records` lemmas
  show that ingestion adds exactly those;
* `ingestFiles_exact` reads the lists back as statements about the graph.
-/

namespace Ripple.Java

/-! ## what is declared -/

/-- The types that some files declare. -/
def typesOf (files : List FileFacts) : List ClassFacts := files.flatMap (·.classes)

/-- The fields that some files declare. -/
def fieldsOf (files : List FileFacts) : List FieldFacts := (typesOf files).flatMap (·.fields)

/-- The methods that some files declare. -/
def methodsOf (files : List FileFacts) : List MethodFacts := (typesOf files).flatMap (·.methods)

/-- The keys of the nodes of a kind that some files declare. -/
def keysOf (files : List FileFacts) : NodeKind → List String
  | .file => files.map (·.path)
  | .type => (typesOf files).map (·.name)
  | .field => (fieldsOf files).map (·.name)
  | .method => (methodsOf files).map (·.signature)

/-- Everything has a name, and methods of one signature have one name and number of parameters. -/
structure WellNamed (files : List FileFacts) : Prop where
  path_not_blank : ∀ f ∈ files, Text.isBlank f.path = false
  type_not_blank : ∀ c ∈ typesOf files, Text.isBlank c.name = false
  field_not_blank : ∀ f ∈ fieldsOf files, Text.isBlank f.name = false
  of_signature_eq : ∀ m ∈ methodsOf files, ∀ m' ∈ methodsOf files, m.signature = m'.signature →
    m.name = m'.name ∧ m.params.length = m'.params.length

/-- A signature is never blank, since it has parentheses. -/
theorem MethodFacts.signature_not_blank (m : MethodFacts) : Text.isBlank m.signature = false := by
  simp [signature, Signature.render, Text.isBlank, Text.isBlankChar]

/-! ## the table of methods -/

/-- The kept methods stand for those of a list, one for each signature. -/
structure Kept.Covers (k : Kept) (l : List MethodFacts) : Prop where
  mem : ∀ m ∈ k.2, m ∈ l
  seen : ∀ s ∈ k.1, ∃ m ∈ k.2, m.signature = s
  covered : ∀ m ∈ l, m.signature ∈ k.1

theorem Kept.Covers.add {k : Kept} {l : List MethodFacts} (h : k.Covers l) (m : MethodFacts) :
    (k.add m).Covers (l ++ [m]) := by
  obtain ⟨seen, kept⟩ := k
  by_cases hs : m.signature ∈ seen
  · have hadd : Kept.add (seen, kept) m = (seen, kept) := by simp [Kept.add, hs]
    rw [hadd]
    refine ⟨fun n hn => List.mem_append_left _ (h.mem n hn), h.seen, ?_⟩
    rw [List.forall_mem_append]
    exact ⟨h.covered, by simpa using hs⟩
  · have hadd : Kept.add (seen, kept) m = (seen.insert m.signature, m :: kept) := by
      simp [Kept.add, hs]
    rw [hadd]
    constructor
    · rw [List.forall_mem_cons]
      exact ⟨by simp, fun n hn => List.mem_append_left _ (h.mem n hn)⟩
    · intro s hs'
      obtain heq | hold := Std.HashSet.mem_insert.mp hs'
      · exact ⟨m, List.mem_cons_self, beq_iff_eq.mp heq⟩
      · obtain ⟨n, hn, hsig⟩ := h.seen s hold
        exact ⟨n, List.mem_cons_of_mem m hn, hsig⟩
    · rw [List.forall_mem_append]
      refine ⟨fun n hn => Std.HashSet.mem_insert.mpr (.inr (h.covered n hn)), ?_⟩
      simp

theorem Kept.Covers.foldl {k : Kept} {l : List MethodFacts} (h : k.Covers l)
    (l' : List MethodFacts) : (l'.foldl Kept.add k : Kept).Covers (l ++ l') := by
  induction l' generalizing k l with
  | nil => simpa using h
  | cons m l' ih => simpa using ih (h.add m)

/-- The table has only declared methods, and one of each signature. -/
theorem declaredMethods_covers (files : List FileFacts) :
    (∀ m ∈ declaredMethods files, m ∈ methodsOf files) ∧
      ∀ m ∈ methodsOf files, ∃ m' ∈ declaredMethods files, m'.signature = m.signature := by
  have hempty : Kept.Covers (∅, []) [] := ⟨by simp, by simp, by simp⟩
  have hcovers := hempty.foldl (methodsOf files)
  rw [List.nil_append] at hcovers
  rw [declaredMethods, ← List.flatMap_assoc]
  simp only [List.mem_reverse]
  exact ⟨hcovers.mem, fun m hm => hcovers.seen _ (hcovers.covered m hm)⟩

variable {files : List FileFacts}

/-- A call goes to the declared methods of its name and number of arguments. -/
theorem WellNamed.mem_resolve (h : WellNamed files) {c : Call} {s : String} :
    s ∈ (Declared.ofFiles files).resolve c ↔
      ∃ m ∈ methodsOf files,
        m.signature = s ∧ m.name = c.name ∧ (m.params.length : Int) = c.args := by
  obtain ⟨hmem, hcovered⟩ := declaredMethods_covers files
  simp only [Declared.resolve, Declared.ofFiles, List.mem_map, List.mem_filter, Bool.and_eq_true,
    beq_iff_eq]
  constructor
  · rintro ⟨m, ⟨hm, hname, hargs⟩, rfl⟩
    exact ⟨m, hmem m hm, rfl, hname, hargs⟩
  · rintro ⟨m, hm, rfl, hname, hargs⟩
    obtain ⟨m', hm', hsig⟩ := hcovered m hm
    obtain ⟨hname', hlength⟩ := h.of_signature_eq m' (hmem m' hm') m hm hsig
    exact ⟨m', ⟨hm', hname'.trans hname, hlength ▸ hargs⟩, hsig⟩

theorem mem_declared_fields {x : String} :
    (Declared.ofFiles files).fields.contains x = true ↔ x ∈ keysOf files .field := by
  have hnames : (files.flatMap fun f => f.classes.flatMap fun c => c.fields.map (·.name)) =
      keysOf files .field := by
    simp only [keysOf, fieldsOf, typesOf, List.map_flatMap, List.flatMap_assoc]
  rw [Declared.ofFiles, hnames]
  simp

/-! ## declarations -/

/-- The nodes of a type with its members. -/
def ClassFacts.mentions (c : ClassFacts) : List Mention :=
  ⟨.type, c.name⟩ :: (c.fields.map (⟨.field, ·.name⟩) ++ c.methods.map (⟨.method, ·.signature⟩))

/-- The edges of a type with its members. -/
def ClassFacts.ties (c : ClassFacts) (path : String) : List Tie :=
  ⟨.contains, ⟨.file, path⟩, ⟨.type, c.name⟩, c.line⟩ ::
    (c.fields.map (fun f => ⟨.hasField, ⟨.type, c.name⟩, ⟨.field, f.name⟩, f.line⟩) ++
      c.methods.map fun m => ⟨.contains, ⟨.type, c.name⟩, ⟨.method, m.signature⟩, m.line⟩)

/-- The nodes of a file with its types. -/
def FileFacts.mentions (f : FileFacts) : List Mention :=
  ⟨.file, f.path⟩ :: f.classes.flatMap (·.mentions)

/-- The edges of a file with its types. -/
def FileFacts.ties (f : FileFacts) : List Tie := f.classes.flatMap (·.ties f.path)

/-- A method with the number of its node. -/
def Numbered (g : Graph) (m : MethodFacts) (p : NodeId × MethodFacts) : Prop :=
  p.2 = m ∧ g.Numbers ⟨.method, m.signature⟩ p.1

theorem Numbered.keeps {g g' : Graph} (hg : g.Keeps g') {m : MethodFacts} {p : NodeId × MethodFacts}
    (h : Numbered g m p) : Numbered g' m p :=
  ⟨h.1, hg h.2⟩

section

variable {b : Builder}

theorem FieldFacts.records {f : FieldFacts} {type : NodeId} {name : String} (hb : b.Ready)
    (hkey : Text.isBlank f.name = false) (htype : b.graph.Numbers ⟨.type, name⟩ type) :
    Records (f.ingest type) b [⟨.field, f.name⟩]
      [⟨.hasField, ⟨.type, name⟩, ⟨.field, f.name⟩, f.line⟩] fun _ _ => True := by
  refine (Records.upsert (s := .field f.name []) hb hkey).bind fun id b₁ hb₁ h₁ hid => ?_
  refine (Records.setFieldType f.type hb₁ hid).bind fun _ b₂ hb₂ h₂ _ => ?_
  exact .link f.line hb₂ (h₂ (h₁ htype)) (h₂ hid) rfl

theorem MethodFacts.records {m : MethodFacts} {type : NodeId} {name : String} (hb : b.Ready)
    (htype : b.graph.Numbers ⟨.type, name⟩ type) :
    Records (m.ingest type) b [⟨.method, m.signature⟩]
      [⟨.contains, ⟨.type, name⟩, ⟨.method, m.signature⟩, m.line⟩] fun p g => Numbered g m p := by
  refine (Records.upsert (s := .method m.signature "" []) hb m.signature_not_blank).bind
    fun id b₁ hb₁ h₁ hid => ?_
  refine (Records.setMethodTypes m.returnType m.params hb₁ hid).bind fun _ b₂ hb₂ h₂ _ => ?_
  refine (Records.link m.line hb₂ (h₂ (h₁ htype)) (h₂ hid) rfl).bind fun _ b₃ hb₃ h₃ _ => ?_
  exact .pure hb₃ ⟨rfl, h₃ (h₂ hid)⟩

theorem ClassFacts.records {c : ClassFacts} {file : NodeId} {path : String} (hb : b.Ready)
    (hkey : Text.isBlank c.name = false) (hfields : ∀ f ∈ c.fields, Text.isBlank f.name = false)
    (hfile : b.graph.Numbers ⟨.file, path⟩ file) :
    Records (c.ingest file path) b c.mentions (c.ties path)
      fun ps g => List.Forall₂ (Numbered g) c.methods ps := by
  simp only [mentions, ties, List.map_eq_flatMap]
  refine (Records.upsertType hb hkey).bind fun type b₁ hb₁ h₁ htype => ?_
  refine (Records.link c.line hb₁ (h₁ hfile) htype rfl).bind fun _ b₂ hb₂ h₂ _ => ?_
  refine Records.bind (.forM hb₂ fun f hf b' hb' h' => ?_) fun _ b₃ hb₃ h₃ _ => ?_
  · exact FieldFacts.records hb' (hfields f hf) (h' (h₂ htype))
  · refine .mapM (fun h => Numbered.keeps h) hb₃ fun m _ b' hb' h' => ?_
    exact MethodFacts.records hb' (h' (h₃ (h₂ htype)))

theorem forall₂_numbered {g : Graph} {ms : List MethodFacts} {ps : List (NodeId × MethodFacts)}
    (h : List.Forall₂ (Numbered g) ms ps) :
    ps.map Prod.snd = ms ∧ ∀ p ∈ ps, g.Numbers ⟨.method, p.2.signature⟩ p.1 := by
  induction h with
  | nil => exact ⟨rfl, by simp⟩
  | cons hp _ ih =>
      obtain ⟨rfl, hnumber⟩ := hp
      exact ⟨congrArg _ ih.1, List.forall_mem_cons.mpr ⟨hnumber, ih.2⟩⟩

/-- Answers of the parts of a list, joined. -/
theorem forall₂_flatten {g : Graph} {l : List α} {methods : α → List MethodFacts}
    {pss : List (List (NodeId × MethodFacts))}
    (h : List.Forall₂ (fun a ps => List.Forall₂ (Numbered g) (methods a) ps) l pss) :
    List.Forall₂ (Numbered g) (l.flatMap methods) pss.flatten := by
  induction h with
  | nil => exact .nil
  | cons hhead _ ih => exact List.rel_append hhead ih

theorem FileFacts.records {f : FileFacts} (hb : b.Ready) (hpath : Text.isBlank f.path = false)
    (htypes : ∀ c ∈ f.classes, Text.isBlank c.name = false)
    (hfields : ∀ c ∈ f.classes, ∀ x ∈ c.fields, Text.isBlank x.name = false) :
    Records f.ingest b f.mentions f.ties
      fun ps g => List.Forall₂ (Numbered g) (f.classes.flatMap (·.methods)) ps := by
  refine (Records.upsert (s := .file (Path.base f.path) f.path) hb hpath).bind
    fun file b₁ hb₁ h₁ hfile => ?_
  refine Records.bind_pure (.mapM (fun h hs => hs.imp fun _ _ hp => hp.keeps h) hb₁ ?_)
    fun _ _ hpss => forall₂_flatten hpss
  exact fun c hc b' hb' h' => ClassFacts.records hb' (htypes c hc) (hfields c hc) (h' hfile)

/-! ## bodies -/

/-- A method mentions another element of the code. -/
theorem records_link_upsert {kind : EdgeKind} {s : Symbol} {id : NodeId} {m : Mention} (line : Int)
    (hb : b.Ready) (hkey : Text.isBlank s.key = false) (hm : b.graph.Numbers m id)
    (hjoin : kind.joins m.kind s.kind = true) :
    Records (do Builder.link kind id (← Builder.upsert s) line) b [s.mention]
      [⟨kind, m, s.mention, line⟩] fun _ _ => True :=
  (Records.upsert hb hkey).bind fun _ _ hb' h' hid => .link line hb' (h' hm) hid hjoin

end

namespace Declared

variable (d : Declared)

/-- The accesses that mean a declared field. -/
def accesses (l : List Access) : List Access := l.filter fun a => d.fields.contains a.name

/-- The nodes that a method body mentions. -/
def mentions (m : MethodFacts) : List Mention :=
  (m.calls.flatMap fun c => (d.resolve c).map (⟨.method, ·⟩)) ++
    ((d.accesses m.reads).map (⟨.field, ·.name⟩) ++ (d.accesses m.writes).map (⟨.field, ·.name⟩))

/-- The edges of a method body. -/
def ties (m : MethodFacts) : List Tie :=
  (m.calls.flatMap fun c =>
    (d.resolve c).map (⟨.calls, ⟨.method, m.signature⟩, ⟨.method, ·⟩, c.line⟩)) ++
    ((d.accesses m.reads).map
        (fun a => ⟨.reads, ⟨.method, m.signature⟩, ⟨.field, a.name⟩, a.line⟩) ++
      (d.accesses m.writes).map fun a =>
        ⟨.writes, ⟨.method, m.signature⟩, ⟨.field, a.name⟩, a.line⟩)

variable {d}

theorem records {b : Builder} {m : MethodFacts} {id : NodeId} (hb : b.Ready)
    (hmethods : ∀ c, ∀ s ∈ d.resolve c, Text.isBlank s = false)
    (hfields : ∀ x, d.fields.contains x = true → Text.isBlank x = false)
    (hm : b.graph.Numbers ⟨.method, m.signature⟩ id) :
    Records (d.ingestBody id m) b (d.mentions m) (d.ties m) fun _ _ => True := by
  simp only [mentions, ties, List.map_eq_flatMap]
  refine Records.bind (.forM hb fun c _ b' hb' h' => .forM hb' fun s hs b'' hb'' h'' => ?_)
    fun _ b₁ hb₁ h₁ _ => Records.bind (.forM hb₁ fun a ha b' hb' h' => ?_)
    fun _ b₂ hb₂ h₂ _ => .forM hb₂ fun a ha b' hb' h' => ?_
  · exact records_link_upsert c.line hb'' (hmethods c s hs) (h'' (h' hm)) rfl
  · exact records_link_upsert a.line hb' (hfields _ (List.mem_filter.mp ha).2) (h' (h₁ hm)) rfl
  · exact records_link_upsert a.line hb' (hfields _ (List.mem_filter.mp ha).2) (h' (h₂ (h₁ hm))) rfl

end Declared

/-! ## all files -/

/-- The nodes of some files. -/
def mentionsOf (files : List FileFacts) : List Mention :=
  files.flatMap (·.mentions) ++ (methodsOf files).flatMap (Declared.ofFiles files).mentions

/-- The edges of some files. -/
def tiesOf (files : List FileFacts) : List Tie :=
  files.flatMap (·.ties) ++ (methodsOf files).flatMap (Declared.ofFiles files).ties

/-- The first pass answers with every declared method and its number. -/
theorem WellNamed.records_declarations (h : WellNamed files) {b : Builder} (hb : b.Ready) :
    Records (files.mapM (·.ingest)) b (files.flatMap (·.mentions)) (files.flatMap (·.ties))
      fun pss g => List.Forall₂ (fun f ps =>
        List.Forall₂ (Numbered g) (f.classes.flatMap (·.methods)) ps) files pss := by
  refine .mapM (fun hkeeps hps => hps.imp fun _ _ hp => hp.keeps hkeeps) hb ?_
  intro f hf b' hb' _
  have htypes : ∀ c ∈ f.classes, c ∈ typesOf files := fun c hc => List.mem_flatMap.mpr ⟨f, hf, hc⟩
  refine FileFacts.records hb' (h.path_not_blank f hf) ?_ ?_
  · intro c hc
    exact h.type_not_blank c (htypes c hc)
  · intro c hc x hx
    exact h.field_not_blank x (List.mem_flatMap.mpr ⟨c, htypes c hc, hx⟩)

/-- The second pass finds every node that it mentions under its key. -/
theorem WellNamed.records (h : WellNamed files) (now : Timestamp) :
    Records (ingestFiles files) (Builder.new now) (mentionsOf files) (tiesOf files)
      fun _ _ => True := by
  refine (h.records_declarations (Builder.ready_new now)).bind fun pss b hb _ hpss => ?_
  have hbodies : List.Forall₂ (Numbered b.graph) (methodsOf files) pss.flatten := by
    rw [methodsOf, typesOf, List.flatMap_assoc]
    exact forall₂_flatten hpss
  obtain ⟨hmethods, hnumbers⟩ := forall₂_numbered hbodies
  -- the loop runs over the answers, the lists over the methods
  rw [← hmethods, List.flatMap_map, List.flatMap_map]
  refine .forM hb fun p hp b' hb' hkeeps => Declared.records hb' ?_ ?_ (hkeeps (hnumbers p hp))
  · intro c s hs
    obtain ⟨m, -, rfl, -⟩ := h.mem_resolve.mp hs
    exact m.signature_not_blank
  · intro x hx
    obtain ⟨f, hf, rfl⟩ := List.mem_map.mp (mem_declared_fields.mp hx)
    exact h.field_not_blank f hf

/-- The nodes of declarations are what the files declare. -/
theorem mem_mentions_files {m : Mention} :
    m ∈ files.flatMap (·.mentions) ↔ m.key ∈ keysOf files m.kind := by
  obtain ⟨kind, key⟩ := m
  cases kind <;>
    simp only [FileFacts.mentions, ClassFacts.mentions, keysOf, typesOf, fieldsOf, methodsOf,
      List.map_flatMap, List.flatMap_assoc, List.mem_flatMap, List.mem_map, List.mem_cons,
      List.mem_append, Mention.mk.injEq]
  all_goals simp [eq_comm]

theorem mem_accesses {l : List Access} {a : Access} :
    a ∈ (Declared.ofFiles files).accesses l ↔ a ∈ l ∧ a.name ∈ keysOf files .field := by
  rw [Declared.accesses, List.mem_filter, mem_declared_fields]

/-- A body mentions declared methods and fields only. -/
theorem WellNamed.mem_keysOf_of_mem_mentions (h : WellNamed files) {m : MethodFacts} {n : Mention}
    (hn : n ∈ (Declared.ofFiles files).mentions m) : n.key ∈ keysOf files n.kind := by
  simp only [Declared.mentions, List.mem_append, List.mem_flatMap, List.mem_map, mem_accesses] at hn
  obtain ⟨c, -, s, hs, rfl⟩ | ⟨a, ⟨-, ha⟩, rfl⟩ | ⟨a, ⟨-, ha⟩, rfl⟩ := hn
  · obtain ⟨m', hm', rfl, -⟩ := h.mem_resolve.mp hs
    exact List.mem_map.mpr ⟨m', hm', rfl⟩
  · exact ha
  · exact ha

theorem WellNamed.mem_mentionsOf (h : WellNamed files) {m : Mention} :
    m ∈ mentionsOf files ↔ m.key ∈ keysOf files m.kind := by
  rw [mentionsOf, List.mem_append, mem_mentions_files, or_iff_left_of_imp]
  intro hm
  obtain ⟨m', -, hm'⟩ := List.mem_flatMap.mp hm
  exact h.mem_keysOf_of_mem_mentions hm'

/-- Declarations give no call and no access. -/
theorem kind_of_mem_ties {f : FileFacts} {t : Tie} (h : t ∈ f.ties) :
    t.kind = .contains ∨ t.kind = .hasField := by
  simp only [FileFacts.ties, ClassFacts.ties, List.mem_flatMap, List.mem_cons, List.mem_append,
    List.mem_map] at h
  obtain ⟨c, -, rfl | ⟨f, -, rfl⟩ | ⟨m, -, rfl⟩⟩ := h
  · exact .inl rfl
  · exact .inr rfl
  · exact .inl rfl

theorem mem_tiesOf {t : Tie} (hcontains : t.kind ≠ .contains) (hfield : t.kind ≠ .hasField) :
    t ∈ tiesOf files ↔ ∃ m ∈ methodsOf files, t ∈ (Declared.ofFiles files).ties m := by
  rw [tiesOf, List.mem_append, List.mem_flatMap, List.mem_flatMap, or_iff_right]
  rintro ⟨f, -, ht⟩
  exact (kind_of_mem_ties ht).elim hcontains hfield

/-- Where the calls of a declared method lead. -/
theorem WellNamed.calls_mem_tiesOf (h : WellNamed files) {s t : String} {line : Int} :
    ⟨.calls, ⟨.method, s⟩, ⟨.method, t⟩, line⟩ ∈ tiesOf files ↔
      ∃ m ∈ methodsOf files, m.signature = s ∧ ∃ c ∈ m.calls, c.line = line ∧
        ∃ m' ∈ methodsOf files, m'.signature = t ∧ m'.name = c.name ∧
          (m'.params.length : Int) = c.args := by
  rw [mem_tiesOf (by simp) (by simp)]
  simp only [← h.mem_resolve]
  constructor
  · rintro ⟨m, hm, ht⟩
    have hcall : ∃ c ∈ m.calls, t ∈ (Declared.ofFiles files).resolve c ∧ m.signature = s ∧
        c.line = line := by
      simpa [Declared.ties] using ht
    obtain ⟨c, hc, htarget, hs, hline⟩ := hcall
    exact ⟨m, hm, hs, c, hc, hline, htarget⟩
  · rintro ⟨m, hm, rfl, c, hc, rfl, htarget⟩
    refine ⟨m, hm, List.mem_append_left _ (List.mem_flatMap.mpr ⟨c, hc, ?_⟩)⟩
    exact List.mem_map.mpr ⟨t, htarget, rfl⟩

/-- The accesses of a declared method that lead to a field. -/
theorem accesses_mem_tiesOf {s f : String} {line : Int} :
    (⟨.reads, ⟨.method, s⟩, ⟨.field, f⟩, line⟩ ∈ tiesOf files ↔
      ∃ m ∈ methodsOf files, m.signature = s ∧ ⟨f, line⟩ ∈ m.reads ∧ f ∈ keysOf files .field) ∧
    (⟨.writes, ⟨.method, s⟩, ⟨.field, f⟩, line⟩ ∈ tiesOf files ↔
      ∃ m ∈ methodsOf files, m.signature = s ∧ ⟨f, line⟩ ∈ m.writes ∧ f ∈ keysOf files .field) := by
  have haccess : ∀ (l : List Access) (signature : String),
      (∃ a ∈ (Declared.ofFiles files).accesses l, signature = s ∧ a.name = f ∧ a.line = line) ↔
        signature = s ∧ ⟨f, line⟩ ∈ l ∧ f ∈ keysOf files .field := by
    intro l signature
    simp only [mem_accesses]
    constructor
    · rintro ⟨a, ha, rfl, rfl, rfl⟩
      exact ⟨rfl, ha⟩
    · rintro ⟨rfl, ha⟩
      exact ⟨_, ha, rfl, rfl, rfl⟩
  rw [mem_tiesOf (by simp) (by simp), mem_tiesOf (by simp) (by simp)]
  simp only [← haccess]
  constructor <;> simp [Declared.ties]

/-! ## the graph -/

/-- **Exact ingestion**: facts whose files, types and fields have names, and in which methods of one
signature have one name and number of parameters, are taken without error.  The nodes of the graph
are what the files declare.  A method calls, at a line, the declared methods of the name and number
of arguments of a call that a method of its signature has at that line; it reads and writes, at a
line, the declared fields of the names that a method of its signature reads and writes at that
line. -/
theorem ingestFiles_exact (now : Timestamp) (h : WellNamed files) :
    ∃ b, (ingestFiles files).run (Builder.new now) = (.ok (), b) ∧ b.graph.WellFormed ∧
      (∀ kind, ((b.graph.nodesOfKind kind).map Node.key).Nodup ∧
        ∀ key, key ∈ (b.graph.nodesOfKind kind).map Node.key ↔ key ∈ keysOf files kind) ∧
      (∀ s t line, b.graph.Ties ⟨.calls, ⟨.method, s⟩, ⟨.method, t⟩, line⟩ ↔
        ∃ m ∈ methodsOf files, m.signature = s ∧ ∃ c ∈ m.calls, c.line = line ∧
          ∃ m' ∈ methodsOf files, m'.signature = t ∧ m'.name = c.name ∧
            (m'.params.length : Int) = c.args) ∧
      (∀ s f line, b.graph.Ties ⟨.reads, ⟨.method, s⟩, ⟨.field, f⟩, line⟩ ↔
        ∃ m ∈ methodsOf files, m.signature = s ∧ ⟨f, line⟩ ∈ m.reads ∧ f ∈ keysOf files .field) ∧
      ∀ s f line, b.graph.Ties ⟨.writes, ⟨.method, s⟩, ⟨.field, f⟩, line⟩ ↔
        ∃ m ∈ methodsOf files,
          m.signature = s ∧ ⟨f, line⟩ ∈ m.writes ∧ f ∈ keysOf files .field := by
  obtain ⟨_, b, hrun, hb, hgains, -⟩ := h.records now
  have hmentions : ∀ m, b.graph.Mentions m ↔ m ∈ mentionsOf files := fun m =>
    (hgains.mentions m).trans (or_iff_right (Graph.not_mentions_empty m))
  have hties : ∀ t, b.graph.Ties t ↔ t ∈ tiesOf files := fun t =>
    (hgains.ties t).trans (or_iff_right (Graph.not_ties_empty t))
  refine ⟨b, hrun, hb.wellFormed, ?_, ?_, ?_, ?_⟩
  · intro kind
    refine ⟨hb.wellFormed.nodup_keys kind, fun key => ?_⟩
    rw [hb.wellFormed.mem_keys_iff, hmentions, h.mem_mentionsOf]
  · intro s t line
    rw [hties, h.calls_mem_tiesOf]
  · intro s f line
    rw [hties, accesses_mem_tiesOf.1]
  · intro s f line
    rw [hties, accesses_mem_tiesOf.2]

/-- A method that calls methods of the next file, three of one name, and one that is not declared;
of the two fields that it reads, one is not declared. -/
def overloadedFiles : List FileFacts :=
  [⟨"A.java", [⟨"A", 1, [⟨"n", "int", 2⟩],
      [⟨"f", [], "void", 3, [⟨"g", 1, 4⟩, ⟨"h", 0, 5⟩], [⟨"n", 6⟩, ⟨"k", 6⟩], []⟩]⟩]⟩,
    ⟨"B.java", [⟨"B", 1, [], [⟨"g", ["int"], "int", 2, [], [], []⟩,
      ⟨"g", ["String"], "int", 3, [], [], []⟩, ⟨"g", ["int", "int"], "int", 4, [], [], []⟩]⟩]⟩]

/-- The call of `g` goes to both methods with one parameter, and the call of `h` nowhere. -/
theorem overloadedFiles_exact :
    WellNamed overloadedFiles ∧
      ∃ b, (ingestFiles overloadedFiles).run (Builder.new 0) = (.ok (), b) ∧
        "h()" ∉ (b.graph.nodesOfKind .method).map Node.key ∧
        "k" ∉ (b.graph.nodesOfKind .field).map Node.key ∧
        b.graph.Ties ⟨.calls, ⟨.method, "f()"⟩, ⟨.method, "g(int)"⟩, 4⟩ ∧
        b.graph.Ties ⟨.calls, ⟨.method, "f()"⟩, ⟨.method, "g(String)"⟩, 4⟩ ∧
        ¬b.graph.Ties ⟨.calls, ⟨.method, "f()"⟩, ⟨.method, "g(int,int)"⟩, 4⟩ ∧
        b.graph.Ties ⟨.reads, ⟨.method, "f()"⟩, ⟨.field, "n"⟩, 6⟩ := by
  have hnamed : WellNamed overloadedFiles :=
    ⟨by decide +kernel, by decide +kernel, by decide +kernel, by decide +kernel⟩
  obtain ⟨b, hrun, -, hnodes, hcalls, hreads, -⟩ := ingestFiles_exact 0 hnamed
  refine ⟨hnamed, b, hrun, ?_, ?_, ?_, ?_, ?_, ?_⟩
  · rw [(hnodes .method).2]
    decide +kernel
  · rw [(hnodes .field).2]
    decide +kernel
  · rw [hcalls]
    decide +kernel
  · rw [hcalls]
    decide +kernel
  · rw [hcalls]
    decide +kernel
  · rw [hreads]
    decide +kernel

end Ripple.Java
