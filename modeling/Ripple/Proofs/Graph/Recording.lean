import Ripple.Proofs.Graph.Lookup
import Mathlib.Data.List.Forall2

/-!
# Ripple.Proofs.Graph.Recording

What operations on a builder add to its graph, said without numbers.

A node is named by its kind and key (`Mention`), an edge by the names of its ends (`Tie`).
`Graph.Gains` compares two graphs: the second has the nodes and edges of the first, with the same
numbers, and those of two lists.  `Records` says of an operation that it succeeds, and which lists
it adds.  Operations in sequence append their lists (`Records.bind`) and a loop joins those of its
turns (`Records.forM`, `Records.mapM`), so that the lists of a program follow its text.
-/

namespace Ripple

open Builder (insertNode insertEdge update)

/-- A node, named by what it is found by. -/
structure Mention where
  kind : NodeKind
  key : String
  deriving DecidableEq

/-- An edge, named by its ends. -/
structure Tie where
  kind : EdgeKind
  source : Mention
  target : Mention
  line : Int
  deriving DecidableEq

/-- What a code element is found by. -/
def Symbol.mention (s : Symbol) : Mention := ⟨s.kind, s.key⟩

namespace Graph

/-- A node of this name has this number. -/
def Numbers (g : Graph) (m : Mention) (id : NodeId) : Prop := g.find? m.kind m.key = some id

/-- There is a node of this name. -/
def Mentions (g : Graph) (m : Mention) : Prop := ∃ id, g.Numbers m id

/-- There is an edge of this name. -/
def Ties (g : Graph) (t : Tie) : Prop :=
  ∃ a b, g.Numbers t.source a ∧ g.Numbers t.target b ∧ g.LinkedAt t.kind a b t.line

/-- No node loses its number. -/
def Keeps (g g' : Graph) : Prop := ∀ ⦃m id⦄, g.Numbers m id → g'.Numbers m id

theorem Keeps.trans {g g' g'' : Graph} (h : g.Keeps g') (h' : g'.Keeps g'') : g.Keeps g'' :=
  fun _ _ hm => h' (h hm)

theorem not_mentions_empty (m : Mention) : ¬empty.Mentions m := by
  simp [Mentions, Numbers]

theorem not_ties_empty (t : Tie) : ¬empty.Ties t := by
  simp [Ties, Numbers]

namespace WellFormed

variable {g : Graph}

/-- A number is that of one name. -/
theorem mention_unique (hg : g.WellFormed) {m m' : Mention} {id : NodeId} (h : g.Numbers m id)
    (h' : g.Numbers m' id) : m = m' := by
  have hkind := (hg.isKind_of_find? h).unique (hg.isKind_of_find? h')
  have hkey := hg.key_unique h h'
  cases m
  cases m'
  exact Mention.mk.injEq _ _ _ _ ▸ ⟨hkind, hkey⟩

theorem mem_keys_iff (hg : g.WellFormed) {kind : NodeKind} {key : String} :
    key ∈ (g.nodesOfKind kind).map Node.key ↔ g.Mentions ⟨kind, key⟩ := by
  simp only [List.mem_map, nodesOfKind, List.mem_filter, Array.mem_toList_iff, beq_iff_eq, Mentions,
    Numbers, hg.find?_iff, hg.node?_iff]
  constructor
  · rintro ⟨n, ⟨hn, hkind⟩, hkey⟩
    exact ⟨n.id, n, ⟨hn, rfl⟩, hkind, hkey⟩
  · rintro ⟨_, n, ⟨hn, -⟩, hkind, hkey⟩
    exact ⟨n, ⟨hn, hkind⟩, hkey⟩

/-- The nodes of a kind have different keys. -/
theorem nodup_keys (hg : g.WellFormed) (kind : NodeKind) :
    ((g.nodesOfKind kind).map Node.key).Nodup := by
  have hmem : ∀ {n}, n ∈ g.nodesOfKind kind → n ∈ g.nodes ∧ n.kind = kind := by
    simp [nodesOfKind]
  rw [List.Nodup, List.pairwise_map]
  refine (hg.nodes_pairwise.filter _).imp_of_mem fun {m n} hm hn hlt hkey => ?_
  have heq := hg.eq_of_key_eq (hmem hm).1 (hmem hn).1 ((hmem hm).2.trans (hmem hn).2.symm) hkey
  exact Int.lt_irrefl _ (heq ▸ hlt)

end WellFormed

/-! ## gains -/

/-- A graph has what another one has, with the same numbers, and the nodes and edges listed. -/
structure Gains (g g' : Graph) (ms : List Mention) (ts : List Tie) : Prop where
  keeps : g.Keeps g'
  mentions : ∀ m, g'.Mentions m ↔ g.Mentions m ∨ m ∈ ms
  ties : ∀ t, g'.Ties t ↔ g.Ties t ∨ t ∈ ts

namespace Gains

variable {g g' g'' : Graph} {ms ms' : List Mention} {ts ts' : List Tie}

/-- What is there already is no change. -/
theorem of_present (hms : ∀ m ∈ ms, g.Mentions m) (hts : ∀ t ∈ ts, g.Ties t) : g.Gains g ms ts where
  keeps _ _ h := h
  mentions m := ⟨.inl, fun h => h.elim id (hms m)⟩
  ties t := ⟨.inl, fun h => h.elim id (hts t)⟩

theorem refl (g : Graph) : g.Gains g [] [] :=
  of_present (by simp) (by simp)

theorem trans (h : g.Gains g' ms ts) (h' : g'.Gains g'' ms' ts') :
    g.Gains g'' (ms ++ ms') (ts ++ ts') where
  keeps := h.keeps.trans h'.keeps
  mentions m := by rw [h'.mentions, h.mentions, List.mem_append, or_assoc]
  ties t := by rw [h'.ties, h.ties, List.mem_append, or_assoc]

theorem insertNode (hg : g.WellFormed) {s : Symbol} (hnew : g.find? s.kind s.key = none) :
    g.Gains (insertNode g s) [s.mention] [] := by
  have hnumbers : ∀ m id, (Builder.insertNode g s).Numbers m id ↔
      g.Numbers m id ∨ m = s.mention ∧ id = g.nodes.size + 1 := by
    rintro ⟨kind, key⟩ id
    simp only [Numbers, find?_insertNode, Symbol.mention, Mention.mk.injEq]
    split
    · next h =>
        obtain ⟨rfl, rfl⟩ := h
        simp [hnew, eq_comm]
    · next h =>
        have hne : ¬(kind = s.kind ∧ key = s.key) := fun heq => h ⟨heq.1.symm, heq.2.symm⟩
        simp [hne]
  -- no edge ends at the number that is given to the new node
  have hends : ∀ kind a b line, g.LinkedAt kind a b line →
      a ≠ g.nodes.size + 1 ∧ b ≠ g.nodes.size + 1 := by
    rintro _ _ _ _ ⟨e, he, -, rfl, rfl, -⟩
    obtain ⟨n, n', hn, hn', -⟩ := hg.joins e he
    constructor
    · intro heq
      rw [heq, node?_size_succ] at hn
      contradiction
    · intro heq
      rw [heq, node?_size_succ] at hn'
      contradiction
  constructor
  · exact fun m id h => (hnumbers m id).mpr (.inl h)
  · intro m
    simp [Mentions, hnumbers, exists_or]
  · intro t
    simp only [List.not_mem_nil, or_false]
    constructor
    · rintro ⟨a, b, ha, hb, hab⟩
      obtain ⟨hane, hbne⟩ := hends _ _ _ _ hab
      exact ⟨a, b, ((hnumbers _ _).mp ha).resolve_right fun h => hane h.2,
        ((hnumbers _ _).mp hb).resolve_right fun h => hbne h.2, hab⟩
    · rintro ⟨a, b, ha, hb, hab⟩
      exact ⟨a, b, (hnumbers _ _).mpr (.inl ha), (hnumbers _ _).mpr (.inl hb), hab⟩

theorem amend (g : Graph) (id : NodeId) (a : Amendment) : g.Gains (update g id a.apply) [] [] where
  keeps _ _ h := h
  mentions m := by simp [Mentions, Numbers]
  ties t := by simp [Ties, Numbers, LinkedAt]

theorem insertEdge (hg : g.WellFormed) {e : Edge} {m m' : Mention} (hm : g.Numbers m e.source)
    (hm' : g.Numbers m' e.target) : g.Gains (insertEdge g e) [] [⟨e.kind, m, m', e.line⟩] where
  keeps _ _ h := h
  mentions n := by simp [Mentions, Numbers]
  ties t := by
    simp only [Ties, Numbers, LinkedAt, find?_insertEdge, edges_insertEdge, Array.mem_push,
      List.mem_singleton]
    constructor
    · rintro ⟨a, b, ha, hb, d, hd | rfl, hkind, rfl, rfl, hline⟩
      · exact .inl ⟨_, _, ha, hb, d, hd, hkind, rfl, rfl, hline⟩
      · rw [hg.mention_unique hm ha, hg.mention_unique hm' hb, hkind, hline]
        exact .inr rfl
    · rintro (⟨a, b, ha, hb, d, hd, hends⟩ | rfl)
      · exact ⟨a, b, ha, hb, d, .inl hd, hends⟩
      · exact ⟨_, _, hm, hm', e, .inr rfl, rfl, rfl, rfl, rfl⟩

end Gains

end Graph

/-! ## operations -/

/-- A builder takes facts. -/
structure Builder.Ready (b : Builder) : Prop where
  isOpen : b.frozen = false
  wellFormed : b.graph.WellFormed

theorem Builder.ready_new (now : Timestamp) : (Builder.new now).Ready :=
  ⟨rfl, Graph.wellFormed_empty⟩

/-- An operation succeeds, adds these nodes and edges, and answers as the graph then requires. -/
def Records (x : Ingest α) (b : Builder) (ms : List Mention) (ts : List Tie)
    (Q : α → Graph → Prop) : Prop :=
  ∃ a b', x.run b = (.ok a, b') ∧ b'.Ready ∧ b.graph.Gains b'.graph ms ts ∧ Q a b'.graph

namespace Records

open Builder

variable {b : Builder} {ms ms' : List Mention} {ts ts' : List Tie}

theorem pure {a : α} {Q : α → Graph → Prop} (hb : b.Ready) (h : Q a b.graph) :
    Records (Pure.pure a) b [] [] Q :=
  ⟨a, b, rfl, hb, .refl b.graph, h⟩

theorem bind {x : Ingest α} {f : α → Ingest β} {Q : α → Graph → Prop} {R : β → Graph → Prop}
    (hx : Records x b ms ts Q)
    (hf : ∀ a b', b'.Ready → b.graph.Keeps b'.graph → Q a b'.graph → Records (f a) b' ms' ts' R) :
    Records (x >>= f) b (ms ++ ms') (ts ++ ts') R := by
  obtain ⟨a, b', hrun, hb', hgains, ha⟩ := hx
  obtain ⟨c, b'', hrun', hb'', hgains', hc⟩ := hf a b' hb' hgains.keeps ha
  refine ⟨c, b'', ?_, hb'', hgains.trans hgains', hc⟩
  rw [run_bind, hrun]
  exact hrun'

/-- An answer that is put in another form adds nothing. -/
theorem bind_pure {x : Ingest α} {f : α → β} {Q : α → Graph → Prop} {R : β → Graph → Prop}
    (hx : Records x b ms ts Q) (hf : ∀ a g, Q a g → R (f a) g) :
    Records (x >>= fun a => Pure.pure (f a)) b ms ts R := by
  rw [← List.append_nil ms, ← List.append_nil ts]
  exact hx.bind fun a _ hb' _ ha => .pure hb' (hf a _ ha)

/-- A loop adds what its turns add, each of which may use the numbers known before the loop. -/
theorem forM {f : α → Ingest Unit} {ms : α → List Mention} {ts : α → List Tie} {l : List α}
    (hb : b.Ready) (hf : ∀ a ∈ l, ∀ b', b'.Ready → b.graph.Keeps b'.graph →
      Records (f a) b' (ms a) (ts a) fun _ _ => True) :
    Records (l.forM f) b (l.flatMap ms) (l.flatMap ts) fun _ _ => True := by
  induction l generalizing b with
  | nil => exact .pure hb trivial
  | cons a l ih =>
      rw [List.forM, List.flatMap_cons, List.flatMap_cons]
      refine (hf a List.mem_cons_self b hb fun _ _ h => h).bind fun _ b' hb' hkeeps _ => ?_
      exact ih hb' fun c hc b'' hb'' hkeeps' =>
        hf c (List.mem_cons_of_mem a hc) b'' hb'' (hkeeps.trans hkeeps')

/-- A loop with answers; what is said of an answer has to stay true as the graph grows. -/
theorem mapM {f : α → Ingest β} {ms : α → List Mention} {ts : α → List Tie} {l : List α}
    {Q : α → β → Graph → Prop}
    (hstable : ∀ {a r g g'}, Graph.Keeps g g' → Q a r g → Q a r g') (hb : b.Ready)
    (hf : ∀ a ∈ l, ∀ b', b'.Ready → b.graph.Keeps b'.graph →
      Records (f a) b' (ms a) (ts a) (Q a)) :
    Records (l.mapM f) b (l.flatMap ms) (l.flatMap ts)
      fun rs g => List.Forall₂ (fun a r => Q a r g) l rs := by
  induction l generalizing b with
  | nil => exact .pure hb .nil
  | cons a l ih =>
      rw [List.mapM_cons, List.flatMap_cons, List.flatMap_cons]
      refine (hf a List.mem_cons_self b hb fun _ _ h => h).bind fun r b' hb' hkeeps hr => ?_
      have hrest := ih hb' fun c hc b'' hb'' hkeeps' =>
        hf c (List.mem_cons_of_mem a hc) b'' hb'' (hkeeps.trans hkeeps')
      obtain ⟨rs, b'', hrun, hb'', hgains, hrs⟩ := hrest
      refine ⟨r :: rs, b'', ?_, hb'', hgains, .cons (hstable hgains.keeps hr) hrs⟩
      rw [run_bind, hrun]
      rfl

theorem upsert {s : Symbol} (hb : b.Ready) (hkey : Text.isBlank s.key = false) :
    Records (upsert s) b [s.mention] [] fun id g => g.Numbers s.mention id := by
  cases hfind : b.graph.find? s.kind s.key with
  | some id =>
      have hpresent : ∀ m ∈ [s.mention], b.graph.Mentions m := by
        simpa using ⟨id, hfind⟩
      exact ⟨id, b, upsert_run_of_found hb.isOpen hkey hfind, hb, .of_present hpresent (by simp),
        hfind⟩
  | none =>
      have hnumber : (insertNode b.graph s).Numbers s.mention (b.graph.nodes.size + 1) := by
        simp [Graph.Numbers, Symbol.mention, Graph.find?_insertNode]
      exact ⟨_, _, upsert_run_of_new hb.isOpen hkey hfind,
        ⟨hb.isOpen, hb.wellFormed.insertNode s hkey hfind⟩, .insertNode hb.wellFormed hfind,
        hnumber⟩

/-- An amendment of a node adds nothing. -/
theorem amend (id : NodeId) (a : Graph.Amendment) (hb : b.Ready) :
    Records (modify fun b => { b with graph := update b.graph id a.apply } : Ingest Unit) b [] []
      fun _ _ => True :=
  ⟨(), _, rfl, ⟨hb.isOpen, hb.wellFormed.amend id a⟩, .amend b.graph id a, trivial⟩

theorem upsertType {name filePath : String} (hb : b.Ready) (hkey : Text.isBlank name = false) :
    Records (upsertType name filePath) b [⟨.type, name⟩] []
      fun id g => g.Numbers ⟨.type, name⟩ id := by
  refine (Records.upsert (s := .type name filePath) hb hkey).bind fun id b' hb' _ hid => ?_
  refine (Records.amend id (.filePath filePath) hb').bind fun _ b'' hb'' hkeeps _ => ?_
  exact .pure hb'' (hkeeps hid)

theorem expect {id : NodeId} {m : Mention} (hb : b.Ready) (hm : b.graph.Numbers m id) :
    Records (expect id m.kind) b [] [] fun _ _ => True := by
  obtain ⟨n, hn, hkind⟩ := hb.wellFormed.isKind_of_find? hm
  have hrun : (Builder.expect id m.kind).run b = (.ok (), b) := by
    rw [expect_run, hn]
    simp [hb.isOpen, hkind]
  exact ⟨(), b, hrun, hb, .refl b.graph, trivial⟩

theorem setFieldType {id : NodeId} {name : String} (text : String) (hb : b.Ready)
    (hm : b.graph.Numbers ⟨.field, name⟩ id) :
    Records (setFieldType id text) b [] [] fun _ _ => True :=
  (expect hb hm).bind fun _ _ hb' _ _ => amend id (.fieldType text) hb'

theorem setMethodTypes {id : NodeId} {signature : String} (returnType : String)
    (parameterTypes : List String) (hb : b.Ready) (hm : b.graph.Numbers ⟨.method, signature⟩ id) :
    Records (setMethodTypes id returnType parameterTypes) b [] [] fun _ _ => True :=
  (expect hb hm).bind fun _ _ hb' _ _ => amend id (.methodTypes returnType parameterTypes) hb'

/-- A new edge between nodes of the right kinds. -/
theorem link {kind : EdgeKind} {source target : NodeId} {m m' : Mention} (line : Int)
    (hb : b.Ready) (hm : b.graph.Numbers m source) (hm' : b.graph.Numbers m' target)
    (hjoin : kind.joins m.kind m'.kind = true) :
    Records (link kind source target line) b [] [⟨kind, m, m', line⟩] fun _ _ => True := by
  obtain ⟨n, hn, hkind⟩ := hb.wellFormed.isKind_of_find? hm
  obtain ⟨n', hn', hkind'⟩ := hb.wellFormed.isKind_of_find? hm'
  rw [← hkind, ← hkind'] at hjoin
  have hrun := link_run kind source target line b
  rw [hb.isOpen, if_neg Bool.false_ne_true, hn, hn'] at hrun
  simp only [hjoin, if_true] at hrun
  by_cases hseen : ⟨kind, source, target, line⟩ ∈ b.graph.seen
  · rw [if_pos hseen] at hrun
    obtain ⟨e, he, hkey⟩ := (hb.wellFormed.seen_iff _).mp hseen
    have hpresent : b.graph.Ties ⟨kind, m, m', line⟩ := by
      cases hkey
      exact ⟨_, _, hm, hm', Graph.linkedAt_of_mem he⟩
    exact ⟨(), b, hrun, hb, .of_present (by simp) (by simpa using hpresent), trivial⟩
  · rw [if_neg hseen] at hrun
    exact ⟨(), _, hrun, ⟨rfl, hb.wellFormed.insertEdge _ rfl hn hn' hjoin hseen⟩,
      .insertEdge hb.wellFormed hm hm', trivial⟩

end Records

end Ripple
