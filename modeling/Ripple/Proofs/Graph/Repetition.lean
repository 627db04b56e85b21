import Ripple.Proofs.Graph.Growth
import Ripple.Proofs.Graph.Recording

/-!
# Ripple.Proofs.Graph.Repetition

Facts that are stated again change nothing.

`Graph.Holds` says that a graph contains what a fact states, and what the fact is answered there:

* `ingest_ok`: after a fact was taken, the graph holds it;
* `Holds.mono`: what a graph holds, it still holds when it has grown.  The first path and the first
  types stay, types of a field are only added, and edges stay where they are;
* `ingest_again`: a fact that is held is answered as before, and the builder is left as it is.

So after a list of facts the graph holds each of them, the early ones too (`ingestAll_ok`), and the
whole list can be repeated (`ingestAll_again`).
-/

namespace Ripple

open Builder (update)

namespace Graph

/-! ## what is settled about an element -/

/-- There is nothing left for an amendment to fill in or to add. -/
def Amendment.Settled : Amendment → Symbol → Prop
  | filePath path, .type _ path' => path = "" ∨ path' ≠ ""
  | fieldType text, .field _ types => text = "" ∨ text ∈ types
  | methodTypes returnType parameterTypes, .method _ ret params =>
    (returnType = "" ∨ ret ≠ "") ∧ (parameterTypes = [] ∨ params ≠ [])
  | _, _ => True

namespace Amendment

/-- An amendment settles what it is about. -/
theorem settled_apply (a : Amendment) (s : Symbol) : a.Settled (a.apply s) := by
  cases a with
  | filePath path =>
      cases s with
      | type name filePath =>
          by_cases hempty : filePath = ""
          · subst hempty
            exact Decidable.em (path = "")
          · simp [apply, Builder.withFilePath, Settled, hempty]
      | file _ _ | field _ _ | method _ _ _ => trivial
  | fieldType text =>
      cases s with
      | field name types =>
          simp only [apply, Builder.withFieldType]
          split
          · next hknown => exact hknown
          · exact .inr (List.mem_append_right types List.mem_cons_self)
      | file _ _ | type _ _ | method _ _ _ => trivial
  | methodTypes returnType parameterTypes =>
      cases s with
      | method signature ret params =>
          refine ⟨?_, ?_⟩
          · by_cases hret : ret = "" <;> simp [hret, Decidable.em]
          · by_cases hparams : params = [] <;> simp [hparams, Decidable.em]
      | file _ _ | type _ _ | field _ _ => trivial

/-- Where all is settled, an amendment changes nothing. -/
theorem Settled.apply_eq {a : Amendment} {s : Symbol} (h : a.Settled s) : a.apply s = s := by
  cases a with
  | filePath path =>
      cases s with
      | type name filePath =>
          by_cases hempty : filePath = ""
          · subst hempty
            obtain rfl : path = "" := h.resolve_right fun hne => hne rfl
            rfl
          · simp [apply, Builder.withFilePath, hempty]
      | file _ _ | field _ _ | method _ _ _ => rfl
  | fieldType text =>
      cases s with
      | field name types => exact if_pos h
      | file _ _ | type _ _ | method _ _ _ => rfl
  | methodTypes returnType parameterTypes =>
      cases s with
      | method signature ret params =>
          obtain ⟨hret, hparams⟩ := h
          simp only [apply, Builder.withMethodTypes, Symbol.method.injEq, true_and]
          grind
      | file _ _ | type _ _ | field _ _ => rfl

/-- What is settled stays settled: the first path and types stay, and no type of a field is lost. -/
theorem Settled.mono {a : Amendment} {s t : Symbol} (h : a.Settled s) (hgrows : s.Grows t) :
    a.Settled t := by
  cases hgrows with
  | file name path => exact h
  | type name hpath =>
      cases a with
      | filePath path => simp only [Settled] at h ⊢; grind
      | fieldType _ | methodTypes _ _ => trivial
  | field name htypes =>
      cases a with
      | fieldType text => exact h.imp_right fun hmem => htypes hmem
      | filePath _ | methodTypes _ _ => trivial
  | method signature hret hparams =>
      cases a with
      | methodTypes returnType parameterTypes => simp only [Settled] at h ⊢; grind
      | filePath _ | fieldType _ => trivial

end Amendment

/-- Where all is settled about a node, the graph is left as it is. -/
theorem update_of_settled {g : Graph} {id : NodeId} {n : Node} {a : Amendment}
    (hn : g.node? id = some n) (h : a.Settled n.symbol) : update g id a.apply = g := by
  obtain ⟨hpos, hlt⟩ := node?_bounds hn
  have hget : g.nodes[(id - 1).toNat] = n := by
    rw [node?, if_pos hpos, Array.getElem?_eq_getElem hlt, Option.some.injEq] at hn
    exact hn
  have hnodes : g.nodes.modify (id - 1).toNat (fun n => { n with symbol := a.apply n.symbol }) =
      g.nodes := by
    apply Array.ext
    · exact Array.size_modify
    · intro i hi hi'
      rw [Array.getElem_modify]
      split
      · next heq =>
          subst heq
          rw [hget, h.apply_eq]
      · rfl
  rw [update, hnodes]

/-! ## facts that a graph holds -/

/-- A number stands for a node of which something is known. -/
def Knows (g : Graph) (id : NodeId) (P : Symbol → Prop) : Prop :=
  ∃ n, g.node? id = some n ∧ P n.symbol

/-- What is known about a node stays known, if it survives what may be learnt about it. -/
theorem Knows.mono {g g' : Graph} {id : NodeId} {P : Symbol → Prop} (h : g.Knows id P)
    (hgrown : g.Extends g') (hP : ∀ s t, P s → s.Grows t → P t) : g'.Knows id P := by
  obtain ⟨n, hn, hknown⟩ := h
  obtain ⟨n', hn', hgrows⟩ := hgrown.node id n hn
  exact ⟨n', hn', hP _ _ hknown hgrows⟩

/-- No node loses its number while a graph grows. -/
theorem Extends.keeps {g g' : Graph} (h : g.Extends g') (hg : g.WellFormed) (hg' : g'.WellFormed) :
    g.Keeps g' := by
  intro m id hm
  obtain ⟨n, hn, hkind, hkey⟩ := (hg.find?_iff _ _ _).mp hm
  obtain ⟨n', hn', hgrows⟩ := h.node id n hn
  exact (hg'.find?_iff _ _ _).mpr ⟨n', hn', hgrows.kind_eq.trans hkind, hgrows.key_eq.trans hkey⟩

/-- A graph contains what a fact states, and this is how the fact is answered. -/
inductive Holds (g : Graph) : Fact → Option NodeId → Prop where
  | file (name path : String) (id : NodeId) (hnode : g.Numbers ⟨.file, path⟩ id) :
    Holds g (.file name path) (some id)
  | type (name filePath : String) (id : NodeId) (hnode : g.Numbers ⟨.type, name⟩ id)
    (hpath : g.Knows id (Amendment.filePath filePath).Settled) :
    Holds g (.type name filePath) (some id)
  | field (name : String) (id : NodeId) (hnode : g.Numbers ⟨.field, name⟩ id) :
    Holds g (.field name) (some id)
  | method (signature : String) (id : NodeId) (hnode : g.Numbers ⟨.method, signature⟩ id) :
    Holds g (.method signature) (some id)
  | fieldType (id : NodeId) (text : String) (hkind : g.IsKind .field id)
    (htype : g.Knows id (Amendment.fieldType text).Settled) : Holds g (.fieldType id text) none
  | methodTypes (id : NodeId) (ret : String) (params : List String) (hkind : g.IsKind .method id)
    (htypes : g.Knows id (Amendment.methodTypes ret params).Settled) :
    Holds g (.methodTypes id ret params) none
  | link (kind : EdgeKind) (source target : NodeId) (line : Int)
    (hlink : g.LinkedAt kind source target line) : Holds g (.link kind source target line) none
  | edge (kind : EdgeKind) (source target : NodeId) (line : Int)
    (hlink : g.LinkedAt kind source target line) (createdAt : Option Timestamp)
    (confidence : Float) : Holds g (.edge (.kind kind) source target line createdAt confidence) none

/-- **What a graph holds, it still holds when it has grown.** -/
theorem Holds.mono {g g' : Graph} {f : Fact} {answer : Option NodeId} (h : g.Holds f answer)
    (hgrown : g.Extends g') (hg : g.WellFormed) (hg' : g'.WellFormed) : g'.Holds f answer := by
  have hkeeps : g.Keeps g' := hgrown.keeps hg hg'
  have hkept : ∀ {kind id}, g.IsKind kind id → g'.IsKind kind id := fun hkind =>
    Knows.mono (P := fun s => s.kind = _) hkind hgrown fun s t hs hgrows => hgrows.kind_eq.trans hs
  have hsettled : ∀ {id} {a : Amendment}, g.Knows id a.Settled → g'.Knows id a.Settled :=
    fun hknown => hknown.mono hgrown fun s t hs hgrows => hs.mono hgrows
  have hlinked : ∀ {kind source target line}, g.LinkedAt kind source target line →
      g'.LinkedAt kind source target line := by
    rintro kind source target line ⟨e, he, hedge⟩
    exact ⟨e, Array.mem_toList_iff.mp (hgrown.edges.subset (Array.mem_toList_iff.mpr he)), hedge⟩
  cases h with
  | file name path id hnode => exact .file name path id (hkeeps hnode)
  | type name filePath id hnode hpath =>
      exact .type name filePath id (hkeeps hnode) (hsettled hpath)
  | field name id hnode => exact .field name id (hkeeps hnode)
  | method signature id hnode => exact .method signature id (hkeeps hnode)
  | fieldType id text hkind htype => exact .fieldType id text (hkept hkind) (hsettled htype)
  | methodTypes id ret params hkind htypes =>
      exact .methodTypes id ret params (hkept hkind) (hsettled htypes)
  | link kind source target line hlink => exact .link kind source target line (hlinked hlink)
  | edge kind source target line hlink createdAt confidence =>
      exact .edge kind source target line (hlinked hlink) createdAt confidence

end Graph

namespace Builder

open Ripple.Graph (Amendment)

/-! ## a fact that is taken -/

/-- A builder after facts were taken: it takes more, and its graph has grown. -/
structure Follows (b b' : Builder) : Prop where
  ready : b'.Ready
  grown : b.graph.Extends b'.graph

theorem Follows.trans {b b' b'' : Builder} (h : b.Follows b') (h' : b'.Follows b'') :
    b.Follows b'' :=
  ⟨h'.ready, h.grown.trans h'.grown⟩

variable {b b' : Builder}

theorem Ready.amend (hb : b.Ready) (id : NodeId) (a : Amendment) :
    b.Follows { b with graph := update b.graph id a.apply } :=
  ⟨⟨hb.isOpen, hb.wellFormed.amend id a⟩, .amend b.graph id a⟩

/-- After an amendment of a node there is nothing left to amend. -/
theorem knows_settled_update {g : Graph} {id : NodeId} {n : Node} (hn : g.node? id = some n)
    (a : Amendment) : (update g id a.apply).Knows id a.Settled := by
  refine ⟨a.node n, ?_, a.settled_apply n.symbol⟩
  rw [Graph.node?_amend, hn, if_pos rfl]
  rfl

theorem upsert_ok (hb : b.Ready) {s : Symbol} {id : NodeId}
    (h : (upsert s).run b = (.ok id, b')) : b.Follows b' ∧ b'.graph.Numbers s.mention id := by
  obtain ⟨e, hrun⟩ | ⟨id', hfind, hrun⟩ | ⟨hkey, hnew, hrun⟩ := upsert_cases s b
  · rw [hrun] at h
    cases h
  · rw [hrun] at h
    cases h
    exact ⟨⟨hb, .refl b.graph⟩, hfind⟩
  · rw [hrun] at h
    cases h
    refine ⟨⟨⟨hb.isOpen, hb.wellFormed.insertNode s hkey hnew⟩, .insertNode b.graph s⟩, ?_⟩
    simp [Graph.Numbers, Symbol.mention, Graph.find?_insertNode]

theorem upsertType_ok (hb : b.Ready) {name filePath : String} {id : NodeId}
    (h : (upsertType name filePath).run b = (.ok id, b')) :
    b.Follows b' ∧ b'.graph.Numbers ⟨.type, name⟩ id ∧
      b'.graph.Knows id (Amendment.filePath filePath).Settled := by
  obtain ⟨id', b₁, hrun, h⟩ := run_bind_eq_ok h
  cases h
  obtain ⟨hfollows, hnumber⟩ := upsert_ok hb hrun
  obtain ⟨n, hn, -⟩ := hfollows.ready.wellFormed.isKind_of_find? hnumber
  exact ⟨hfollows.trans (hfollows.ready.amend id (.filePath filePath)), hnumber,
    knows_settled_update hn (.filePath filePath)⟩

theorem amend_ok (hb : b.Ready) {id : NodeId} {kind : NodeKind} {a : Amendment}
    (h : (do
      expect id kind
      modify fun b => { b with graph := update b.graph id a.apply } : Ingest Unit).run b =
        (.ok (), b')) :
    b.Follows b' ∧ b'.graph.IsKind kind id ∧ b'.graph.Knows id a.Settled := by
  rw [run_bind] at h
  obtain ⟨e, hrun⟩ | ⟨n, hn, hkind, hrun⟩ := expect_cases id kind b
  · rw [hrun] at h
    cases h
  · rw [hrun] at h
    cases h
    have hamend := hb.amend id a
    obtain ⟨n', hn', hgrows⟩ := hamend.grown.node id n hn
    exact ⟨hamend, ⟨n', hn', hgrows.kind_eq.trans hkind⟩, knows_settled_update hn a⟩

theorem addEdge_ok (hb : b.Ready) {label : EdgeLabel} {source target : NodeId} {line : Int}
    {createdAt : Option Timestamp} {confidence : Float}
    (h : (addEdge label source target line createdAt confidence).run b = (.ok (), b')) :
    b.Follows b' ∧ ∃ kind, label = .kind kind ∧ b'.graph.LinkedAt kind source target line := by
  obtain ⟨e, hrun⟩ | ⟨kind, s, t, hlabel, hs, ht, hjoin, ⟨hseen, hrun⟩ | ⟨hnew, hrun⟩⟩ :=
    addEdge_cases label source target line createdAt confidence b
  · rw [hrun] at h
    cases h
  · rw [hrun] at h
    cases h
    refine ⟨⟨hb, .refl b.graph⟩, kind, hlabel, ?_⟩
    obtain ⟨e, he, hkey⟩ := (hb.wellFormed.seen_iff _).mp hseen
    cases hkey
    exact Graph.linkedAt_of_mem he
  · rw [hrun] at h
    cases h
    refine ⟨⟨⟨hb.isOpen, hb.wellFormed.insertEdge _ rfl hs ht hjoin hnew⟩, .insertEdge b.graph _⟩,
      kind, hlabel, ?_⟩
    exact ⟨_, Array.mem_push_self, rfl, rfl, rfl, rfl⟩

/-- **One fact**: when it is taken, the graph holds it. -/
theorem ingest_ok (hb : b.Ready) {f : Fact} {answer : Option NodeId}
    (h : (ingest f).run b = (.ok answer, b')) : b.Follows b' ∧ b'.graph.Holds f answer := by
  cases f with
  | file name path =>
      obtain ⟨id, hrun, rfl⟩ := run_map_eq_ok h
      exact (upsert_ok hb hrun).imp_right (.file name path id)
  | type name filePath =>
      obtain ⟨id, hrun, rfl⟩ := run_map_eq_ok h
      obtain ⟨hfollows, hnode, hpath⟩ := upsertType_ok hb hrun
      exact ⟨hfollows, .type name filePath id hnode hpath⟩
  | field name =>
      obtain ⟨id, hrun, rfl⟩ := run_map_eq_ok h
      exact (upsert_ok hb hrun).imp_right (.field name id)
  | method signature =>
      obtain ⟨id, hrun, rfl⟩ := run_map_eq_ok h
      exact (upsert_ok hb hrun).imp_right (.method signature id)
  | fieldType id text =>
      obtain ⟨_, hrun, rfl⟩ := run_map_eq_ok h
      obtain ⟨hfollows, hkind, htype⟩ := amend_ok (a := .fieldType text) hb hrun
      exact ⟨hfollows, .fieldType id text hkind htype⟩
  | methodTypes id ret params =>
      obtain ⟨_, hrun, rfl⟩ := run_map_eq_ok h
      obtain ⟨hfollows, hkind, htypes⟩ := amend_ok (a := .methodTypes ret params) hb hrun
      exact ⟨hfollows, .methodTypes id ret params hkind htypes⟩
  | link kind source target line =>
      obtain ⟨_, hrun, rfl⟩ := run_map_eq_ok h
      obtain ⟨hfollows, _, hlabel, hlink⟩ := addEdge_ok hb hrun
      cases hlabel
      exact ⟨hfollows, .link kind source target line hlink⟩
  | edge label source target line createdAt confidence =>
      obtain ⟨_, hrun, rfl⟩ := run_map_eq_ok h
      obtain ⟨hfollows, kind, rfl, hlink⟩ := addEdge_ok hb hrun
      exact ⟨hfollows, .edge kind source target line hlink createdAt confidence⟩

/-! ## a fact that is stated again -/

theorem upsert_again (hb : b.Ready) {s : Symbol} {id : NodeId}
    (h : b.graph.Numbers s.mention id) : (upsert s).run b = (.ok id, b) := by
  have hkey : Text.isBlank s.key = false := by
    obtain ⟨n, hn, -, hkey⟩ := (hb.wellFormed.find?_iff _ _ _).mp h
    have hgiven := hb.wellFormed.key_not_blank n (hb.wellFormed.node?_iff.mp hn).1
    rwa [hkey] at hgiven
  exact upsert_run_of_found hb.isOpen hkey h

theorem upsertType_again (hb : b.Ready) {name filePath : String} {id : NodeId}
    (hnode : b.graph.Numbers ⟨.type, name⟩ id)
    (hpath : b.graph.Knows id (Amendment.filePath filePath).Settled) :
    (upsertType name filePath).run b = (.ok id, b) := by
  obtain ⟨n, hn, hsettled⟩ := hpath
  have hupdate := Graph.update_of_settled hn hsettled
  rw [upsertType, run_bind, upsert_again (s := .type name filePath) hb hnode]
  simp only [run_bind, run_modify]
  exact congrArg (fun g => (Except.ok id, { b with graph := g })) hupdate

theorem amend_again (hb : b.Ready) {id : NodeId} {kind : NodeKind} {a : Amendment}
    (hkind : b.graph.IsKind kind id) (hknown : b.graph.Knows id a.Settled) :
    (do
      expect id kind
      modify fun b => { b with graph := update b.graph id a.apply } : Ingest Unit).run b =
        (.ok (), b) := by
  obtain ⟨n, hn, hkind⟩ := hkind
  obtain ⟨n', hn', hsettled⟩ := hknown
  have hexpect : (expect id kind).run b = (.ok (), b) := by
    simp [expect_run, hb.isOpen, hn, hkind]
  rw [run_bind, hexpect]
  simp only [run_modify, Graph.update_of_settled hn' hsettled]

theorem addEdge_again (hb : b.Ready) {kind : EdgeKind} {source target : NodeId} {line : Int}
    (h : b.graph.LinkedAt kind source target line) (createdAt : Option Timestamp)
    (confidence : Float) :
    (addEdge (.kind kind) source target line createdAt confidence).run b = (.ok (), b) := by
  obtain ⟨e, he, rfl, rfl, rfl, rfl⟩ := h
  obtain ⟨s, t, hs, ht, hjoin⟩ := hb.wellFormed.joins e he
  -- an edge is recognised by its ends and line, whatever its time and confidence
  have hseen : ⟨e.kind, e.source, e.target, e.line⟩ ∈ b.graph.seen :=
    (hb.wellFormed.seen_iff _).mpr ⟨e, he, rfl⟩
  simp [addEdge, ExceptT.run, hb.isOpen, hs, ht, hjoin, hseen]

/-- **One fact again**: where the graph holds it, nothing changes. -/
theorem ingest_again (hb : b.Ready) {f : Fact} {answer : Option NodeId}
    (h : b.graph.Holds f answer) : (ingest f).run b = (.ok answer, b) := by
  cases h with
  | file name path id hnode => exact run_map_of_ok some (upsert_again hb hnode)
  | type name filePath id hnode hpath => exact run_map_of_ok some (upsertType_again hb hnode hpath)
  | field name id hnode => exact run_map_of_ok some (upsert_again hb hnode)
  | method signature id hnode => exact run_map_of_ok some (upsert_again hb hnode)
  | fieldType id text hkind htype =>
      have hrun := amend_again (a := .fieldType text) hb hkind htype
      exact run_map_of_ok (fun _ => none) hrun
  | methodTypes id ret params hkind htypes =>
      have hrun := amend_again (a := .methodTypes ret params) hb hkind htypes
      exact run_map_of_ok (fun _ => none) hrun
  | link kind source target line hlink =>
      exact run_map_of_ok (fun _ => none) (addEdge_again hb hlink none certain)
  | edge kind source target line hlink createdAt confidence =>
      exact run_map_of_ok (fun _ => none) (addEdge_again hb hlink createdAt confidence)

/-! ## all facts -/

/-- Takes facts in order, the first of them at the first time of a clock and so on, and lists what
they are answered; a fact that is refused ends it. -/
def ingestAll : (Nat → Timestamp) → List Fact → Ingest (List (Option NodeId))
  | _, [] => return []
  | clock, f :: facts => do
    modify fun b => { b with now := clock 0 }
    let answer ← ingest f
    let answers ← ingestAll (fun i => clock (i + 1)) facts
    return answer :: answers

/-- **All facts**: when they are taken, the graph holds each of them in the end. -/
theorem ingestAll_ok {facts : List Fact} {clock : Nat → Timestamp}
    {answers : List (Option NodeId)} (hb : b.Ready)
    (h : (ingestAll clock facts).run b = (.ok answers, b')) :
    b.Follows b' ∧ List.Forall₂ b'.graph.Holds facts answers := by
  induction facts generalizing clock answers b with
  | nil =>
      cases h
      exact ⟨⟨hb, .refl _⟩, .nil⟩
  | cons f facts ih =>
      have hticked : Ready { b with now := clock 0 } := ⟨hb.isOpen, hb.wellFormed⟩
      obtain ⟨_, _, htick, h⟩ := run_bind_eq_ok h
      cases htick
      obtain ⟨answer, b₁, hf, h⟩ := run_bind_eq_ok h
      obtain ⟨rest, b₂, hrest, h⟩ := run_bind_eq_ok h
      cases h
      obtain ⟨hfollows, hholds⟩ := ingest_ok hticked hf
      obtain ⟨hfollows', hrest'⟩ := ih hfollows.ready hrest
      -- the fact is held when it is taken, and the rest only lets the graph grow
      have hkept := hholds.mono hfollows'.grown hfollows.ready.wellFormed hfollows'.ready.wellFormed
      exact ⟨⟨hfollows'.ready, hfollows.grown.trans hfollows'.grown⟩, .cons hkept hrest'⟩

/-- **All facts again**: where the graph holds them, they are answered as they were and only time
passes. -/
theorem ingestAll_of_holds {facts : List Fact} {answers : List (Option NodeId)} (hb : b.Ready)
    (h : List.Forall₂ b.graph.Holds facts answers) (clock : Nat → Timestamp) :
    ∃ now, (ingestAll clock facts).run b = (.ok answers, { b with now := now }) := by
  induction facts generalizing clock answers b with
  | nil =>
      cases h
      exact ⟨b.now, rfl⟩
  | cons f facts ih =>
      cases h with
      | cons hf hfacts =>
          have hticked : Ready { b with now := clock 0 } := ⟨hb.isOpen, hb.wellFormed⟩
          obtain ⟨now, hrest⟩ := ih hticked hfacts (fun i => clock (i + 1))
          refine ⟨now, ?_⟩
          rw [ingestAll, run_bind, run_modify]
          simp only [run_bind, ingest_again hticked hf, hrest]
          rfl

/-- **Ingestion is idempotent**: when a fresh builder has taken a list of facts, it takes the same
list again.  Each fact is answered as it was, and the graph stays the same, with all that is known
of its nodes, the times of its edges and its indices, whatever the clock shows then. -/
theorem ingestAll_again {facts : List Fact} {now : Timestamp} {clock : Nat → Timestamp}
    {answers : List (Option NodeId)} {b : Builder}
    (h : (ingestAll clock facts).run (Builder.new now) = (.ok answers, b))
    (clock' : Nat → Timestamp) :
    ∃ b', (ingestAll clock' facts).run b = (.ok answers, b') ∧ b'.graph = b.graph := by
  obtain ⟨hfollows, hholds⟩ := ingestAll_ok (ready_new now) h
  obtain ⟨now', hagain⟩ := ingestAll_of_holds hfollows.ready hholds clock'
  exact ⟨_, hagain, rfl⟩

/-- A class whose path is given late, a field of two types, a method whose types are filled in one
by one, and a declaration that is seen on two lines, on one of them twice. -/
def lateFacts : List Fact :=
  [.type "A" "", .field "x", .fieldType 2 "int", .type "A" "/A.java", .fieldType 2 "long",
    .method "f()", .methodTypes 3 "" ["K"], .methodTypes 3 "int" [], .methodTypes 3 "long" ["V"],
    .link .contains 1 3 4, .link .contains 1 3 4, .link .contains 1 3 9]

/-- What they are answered. -/
def lateAnswers : List (Option NodeId) :=
  [some 1, some 2, none, some 1, none, some 3, none, none, none, none, none, none]

theorem lateFacts_taken :
    ((ingestAll (fun i => i) lateFacts).run (Builder.new 0)).1 = .ok lateAnswers := by
  simp [lateFacts, lateAnswers, ingestAll, ingest, run_map, upsert_run_of_new, upsert_run_of_found,
    Except.map, upsertType, upsertField, upsertMethod, setFieldType, setMethodTypes, run_bind,
    run_modify, expect_run, link_run, Builder.new, Graph.node?_insertNode, Graph.find?_insertNode,
    Graph.node?_update, Text.isBlank, Symbol.key, Symbol.kind, Text.isBlankChar, Node.kind,
    EdgeKind.joins, withFilePath, withFieldType, withMethodTypes, Edge.key]

/-- The early facts, which said less than was known in the end, are absorbed too. -/
theorem lateFacts_again :
    ∃ b, (ingestAll (fun i => i) lateFacts).run (Builder.new 0) = (.ok lateAnswers, b) ∧
      ∃ b', (ingestAll (fun i => 100 + i) lateFacts).run b = (.ok lateAnswers, b') ∧
        b'.graph = b.graph := by
  have htaken : (ingestAll (fun i => i) lateFacts).run (Builder.new 0) = (.ok lateAnswers, _) :=
    Prod.ext lateFacts_taken rfl
  exact ⟨_, htaken, ingestAll_again htaken fun i => 100 + i⟩

end Builder

end Ripple
