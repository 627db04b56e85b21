import Ripple.Proofs.Snapshot.Ranking

/-!
# Ripple.Proofs.Snapshot.Scores

The score of one method, beside the list of the methods with most callers and beside itself.

A score counts two sets of nodes: the direct callers of a method (`Graph.callersOf`) and its callers
over at most 50 calls (`Graph.callersWithin`).  `Database.riskScore_of_rows` says so for a
saved graph, and

* `Database.topRisky_saved` compares the list with the scores of its methods: the same counts of
  direct callers, and never a higher level, since levels grow with both counts (`ofCallers_mono`);
* `Database.riskScore_counts` compares the two counts.  A method that calls itself is among its
  direct callers and never among the others, so the second count can fall one short of the first.
-/

namespace Ripple

open Std

/-! ## levels -/

namespace RiskLevel

/-- How high a level is. -/
def height : RiskLevel → Nat
  | low => 0
  | medium => 1
  | high => 2
  | critical => 3

/-- The level does not fall when callers are added. -/
theorem ofCallers_mono {direct direct' total total' : Int} (hdirect : direct ≤ direct')
    (htotal : total ≤ total') :
    (ofCallers direct total).height ≤ (ofCallers direct' total').height := by
  unfold ofCallers
  split_ifs <;> simp only [height] <;> omega

end RiskLevel

/-! ## callers as sets of nodes -/

namespace Graph

/-- The nodes that call a node, itself included if it does. -/
def callersOf (g : Graph) (m : Node) : Set Node :=
  {c | c ∈ g.nodes ∧ g.Linked .calls c.id m.id}

/-- The other nodes from which a shortest way over calls to a node takes at most so many. -/
def callersWithin (g : Graph) (limit : Nat) (m : Node) : Set Node :=
  {c | c ∈ g.nodes ∧ c.id ≠ m.id ∧ ∃ k, g.CallsAway c.id m.id k ∧ 1 ≤ k ∧ k ≤ limit}

/-- A set of nodes of a graph is finite. -/
theorem finite_of_nodes {g : Graph} {s : Set Node} (h : ∀ c ∈ s, c ∈ g.nodes) : s.Finite :=
  g.nodes.toList.finite_toSet.subset fun c hc => Array.mem_toList_iff.mpr (h c hc)

theorem not_mem_callersWithin (g : Graph) (limit : Nat) (m : Node) :
    m ∉ g.callersWithin limit m :=
  fun h => h.2.1 rfl

/-- Who calls another method is one call away. -/
theorem mem_callersWithin_of_mem_callersOf {g : Graph} (hg : g.WellFormed) {limit : Nat}
    (hlimit : 1 ≤ limit) {m c : Node} (hm : m ∈ g.nodes) (hc : c ∈ g.callersOf m) (hne : c ≠ m) :
    c ∈ g.callersWithin limit m := by
  obtain ⟨hmem, hcalls⟩ := hc
  have hid : c.id ≠ m.id := by
    intro heq
    have hnode := hg.node?_iff.mpr ⟨hmem, heq⟩
    rw [hg.node?_iff.mpr ⟨hm, rfl⟩] at hnode
    exact hne (Option.some.inj hnode).symm
  have hwalk : Walk (g.Linked .calls) 1 c.id m.id := (Walk.nil _).snoc hcalls
  exact ⟨hmem, hid, 1, ⟨hwalk, fun _ hn => Walk.pos hn hid⟩, Nat.le_refl 1, hlimit⟩

theorem WellFormed.callerCount_eq {g : Graph} (hg : g.WellFormed) (m : Node) :
    g.callerCount m = (g.callersOf m).ncard := by
  refine hg.ncard_nodes (NodeId.nodup_setOf _) ?_ fun c => and_congr_right fun _ => ?_
  · intro x hx
    obtain ⟨n, hn, -⟩ := (hg.isKind_of_calls (hg.mem_predecessors.mp hx)).1
    exact ⟨n, hn⟩
  · exact hg.mem_predecessors.symm

end Graph

/-! ## the score of a method -/

namespace Snapshot

/-- The score that a database gives a method on its own: all callers are counted. -/
noncomputable def fullScoreOf (g : Graph) (t : Tables) (m : Node) : RiskScore :=
  { scoreOf g t m with
    totalCallers := (g.callersWithin depthLimit m).ncard
    level := (RiskLevel.ofCallers (g.callersOf m).ncard
      (g.callersWithin depthLimit m).ncard).word }

section
variable {g : Graph} (hg : g.WellFormed)
include hg

theorem totalCallers_ofGraph (now : Timestamp) (m : Node) :
    totalCallers (sourcesByTarget (.ofGraph g now) .calls) m.id =
      (g.callersWithin depthLimit m).ncard := by
  obtain ⟨l, hnodup, hcount, hnear⟩ := exists_callers_ofGraph g now m.id
  rw [hcount]
  refine hg.ncard_nodes hnodup ?_ fun c => and_congr_right fun _ => (hnear c.id).symm
  intro x hx
  obtain ⟨hne, k, ⟨hwalk, -⟩, -⟩ := (hnear x).mp hx
  exact hg.exists_node_of_walk hwalk hne

/-- The row of a method is found by its key. -/
theorem find?_methods_ofGraph (now : Timestamp) {m : Node} (hm : m ∈ g.nodesOfKind .method) :
    (Tables.ofGraph g now).methods.find? (·.key == m.key) = some (.ofNode m) := by
  have hfound := find?_of_nodup_keys (hg.nodup_keys .method) hm
  rw [methods_ofGraph, List.find?_map]
  simp only [Function.comp_def, NodeRow.ofNode_key, hfound, Option.map_some]

theorem riskScore_ofGraph (now : Timestamp) {m : Node} (hm : m ∈ g.nodesOfKind .method) :
    (Tables.ofGraph g now).riskScore m.key = .ok (fullScoreOf g (.ofGraph g now) m) := by
  simp only [Tables.riskScore, find?_methods_ofGraph hg now hm, signature_ofNode hg hm,
    NodeRow.ofNode_id, directCallers_ofGraph hg, totalCallers_ofGraph hg, fullScoreOf, scoreOf,
    ← hg.callerCount_eq]
  rfl

end

/-- An open database stays open when a graph is saved, and holds its rows. -/
theorem Database.exists_saved (db : Database) (hopen : db.isOpen = true) (g : Graph)
    (now : Timestamp) :
    ∃ db', db.save false g now = .ok db' ∧ db'.isOpen = true ∧ db'.tables = .ofGraph g now :=
  ⟨_, save_of_open hopen g now, hopen, rfl⟩

/-- What is read from the rows of an open database is its answer. -/
theorem Database.read_eq_ok {α : Type} {f : Tables → Except ScoreError α} {db : Database}
    (hopen : db.isOpen = true) {a : α} (h : f db.tables = .ok a) :
    (do let t ← db.access false; (f t).mapError ScoreError.toFailure) = .ok a := by
  rw [access_of_open hopen]
  change (f db.tables).mapError ScoreError.toFailure = _
  rw [h]
  rfl

/-- The score that a database gives a method of the graph whose rows it holds. -/
theorem Database.riskScore_of_rows {g : Graph} (hg : g.WellFormed) {db : Database}
    (hopen : db.isOpen = true) {now : Timestamp} (hrows : db.tables = .ofGraph g now) {m : Node}
    (hm : m ∈ g.nodesOfKind .method) :
    db.riskScore m.key = .ok (fullScoreOf g db.tables m) := by
  refine read_eq_ok (f := (·.riskScore m.key)) hopen ?_
  rw [hrows]
  exact riskScore_ofGraph hg now hm

/-- **Lists and scores agree**: for every graph that a builder holds and that was saved, and for
every limit, the database lists the first methods, all for a negative limit, of the list of all
methods in strict order of the number of their direct callers, most first, and of their signature.
Each has a score, which shows the same number, signature, file path and direct callers, and a level
that is at least as high as in the list. -/
theorem Database.topRisky_saved {g : Graph} (hg : g.Built) (db : Database)
    (hopen : db.isOpen = true) (now : Timestamp) :
    ∃ db' ranked, db.save false g now = .ok db' ∧
      (∀ m, m ∈ ranked ↔ m ∈ g.nodes ∧ m.kind = .method) ∧
      (ranked.Pairwise fun a b => (g.callersOf b).ncard < (g.callersOf a).ncard ∨
        ((g.callersOf a).ncard = (g.callersOf b).ncard ∧ a.key < b.key)) ∧
      ∀ limit : Int, ∃ scores, db'.topRisky limit = .ok scores ∧
        List.Forall₂ (fun m s => s.id = m.id ∧ s.signature = m.key ∧
          s.directCallers = ((g.callersOf m).ncard : Int) ∧
          ∃ r, db'.riskScore s.signature = .ok r ∧ r.id = s.id ∧ r.signature = s.signature ∧
            r.filePath = s.filePath ∧ r.directCallers = s.directCallers ∧
            ∃ listed scored : RiskLevel, s.level = listed.word ∧ r.level = scored.word ∧
              listed.height ≤ scored.height)
          (if limit < 0 then ranked else ranked.take limit.toNat) scores := by
  have hwf := hg.wellFormed
  obtain ⟨db', hsave, hopen', htables⟩ := exists_saved db hopen g now
  refine ⟨db', g.ranking, hsave, fun _ => Graph.mem_ranking, ?_, ?_⟩
  · refine hwf.ranking_arranged.imp fun {a b} hlt => ?_
    rw [Graph.rank, Graph.rank, Prod.Lex.toLex_lt_toLex, hwf.callerCount_eq, hwf.callerCount_eq]
      at hlt
    exact hlt
  · intro limit
    have hlist := topRisky_eq hwf now limit
    rw [← htables] at hlist
    refine ⟨_, read_eq_ok (f := (·.topRisky limit)) hopen' hlist, ?_⟩
    rw [List.forall₂_map_right_iff, List.forall₂_same]
    intro m hm
    have hranked : m ∈ g.ranking := by
      split at hm
      · exact hm
      · exact List.mem_of_mem_take hm
    have hscore := riskScore_of_rows hwf hopen' htables (List.mem_mergeSort.mp hranked)
    refine ⟨rfl, rfl, congrArg Nat.cast (hwf.callerCount_eq m), fullScoreOf g db'.tables m,
      hscore, rfl, rfl, rfl, rfl, _, _, rfl, rfl, ?_⟩
    rw [hwf.callerCount_eq]
    exact RiskLevel.ofCallers_mono (Int.le_refl _) (Int.natCast_nonneg _)

/-- The first method of the list has a score with the same number of direct callers. -/
theorem getters_topRisky_saved :
    Graph.getters.Built ∧ Database.new.isOpen = true ∧
      ∃ db s r, Database.new.save false Graph.getters 0 = .ok db ∧ db.topRisky 1 = .ok [s] ∧
        db.riskScore s.signature = .ok r ∧ r.directCallers = s.directCallers := by
  obtain ⟨db, ranked, hsave, hmem, -, hlists⟩ :=
    Database.topRisky_saved Graph.getters_built .new rfl 0
  obtain ⟨scores, hscores, hagree⟩ := hlists 1
  -- the overload is a method, so the list is not empty
  have hfind := Graph.getters_find?.2.2.2.2.1
  obtain ⟨m, hm, hkind, -⟩ := (Graph.getters_built.wellFormed.find?_iff _ _ _).mp hfind
  have hranked := (hmem m).mpr ⟨(Graph.getters_built.wellFormed.node?_iff.mp hm).1, hkind⟩
  obtain ⟨first, rest, rfl⟩ := List.exists_cons_of_ne_nil (List.ne_nil_of_mem hranked)
  obtain ⟨s, _, ⟨-, -, -, r, hscore, -, -, -, hdirect, -⟩, hnil, rfl⟩ :=
    List.forall₂_cons_left_iff.mp hagree
  cases hnil
  exact ⟨Graph.getters_built, rfl, db, s, r, hsave, hscores, hscore, hdirect⟩

end Snapshot

/-! ## direct and transitive callers -/

/-- A set that only leaves out one element of another, and lacks it, is smaller by one or not at
all. -/
theorem ncard_lt_iff_of_forall_ne {α : Type} {s t : Set α} {a : α} (hs : s.Finite) (ha : a ∉ s)
    (h : ∀ x ∈ t, x ≠ a → x ∈ s) :
    t.ncard ≤ s.ncard + 1 ∧ (s.ncard < t.ncard ↔ a ∈ t ∧ s ⊆ t) := by
  have hsub : t ⊆ insert a s := fun x hx => (em (x = a)).imp_right (h x hx)
  have hcard : (insert a s).ncard = s.ncard + 1 := Set.ncard_insert_of_notMem ha hs
  have hle : t.ncard ≤ (insert a s).ncard := Set.ncard_le_ncard hsub (hs.insert a)
  refine ⟨hcard ▸ hle, ?_⟩
  rw [← Set.insert_subset_iff]
  constructor
  · intro hlt
    exact (Set.eq_of_subset_of_ncard_le hsub (by omega) (hs.insert a)).ge
  · intro hge
    rw [hsub.antisymm hge, hcard]
    exact Nat.lt_succ_self _

namespace Snapshot

/-- **Direct and transitive callers**: for every graph that a builder holds and that was saved, and
for every method in it, the score counts the direct callers and those other than the method within
50 calls.  A direct caller other than the method is counted among these, so the second count falls
one short of the first at most; it does exactly when the method calls itself and its callers within
50 calls are direct ones. -/
theorem Database.riskScore_counts {g : Graph} (hg : g.Built) (db : Database)
    (hopen : db.isOpen = true) (now : Timestamp) {m : Node} (hm : m ∈ g.nodes)
    (hkind : m.kind = .method) :
    ∃ db' r, db.save false g now = .ok db' ∧ db'.riskScore m.key = .ok r ∧
      r.directCallers = ((g.callersOf m).ncard : Int) ∧
      r.totalCallers = ((g.callersWithin 50 m).ncard : Int) ∧
      (∀ c ∈ g.callersOf m, c ≠ m → c ∈ g.callersWithin 50 m) ∧
      r.directCallers ≤ r.totalCallers + 1 ∧
      (r.totalCallers < r.directCallers ↔
        g.Linked .calls m.id m.id ∧ g.callersWithin 50 m ⊆ g.callersOf m) := by
  have hwf := hg.wellFormed
  obtain ⟨db', hsave, hopen', htables⟩ := exists_saved db hopen g now
  have hscore := riskScore_of_rows hwf hopen' htables (m := m)
    (by simpa [Graph.nodesOfKind] using ⟨hm, hkind⟩)
  have hdirect : (fullScoreOf g db'.tables m).directCallers = ((g.callersOf m).ncard : Int) :=
    congrArg Nat.cast (hwf.callerCount_eq m)
  have htotal : (fullScoreOf g db'.tables m).totalCallers = ((g.callersWithin 50 m).ncard : Int) :=
    rfl
  have hcounted : ∀ c ∈ g.callersOf m, c ≠ m → c ∈ g.callersWithin 50 m :=
    fun c => Graph.mem_callersWithin_of_mem_callersOf hwf (by decide) hm
  obtain ⟨hle, hiff⟩ := ncard_lt_iff_of_forall_ne (Graph.finite_of_nodes fun _ hc => hc.1)
    (g.not_mem_callersWithin 50 m) hcounted
  have hself : m ∈ g.callersOf m ↔ g.Linked .calls m.id m.id := and_iff_right hm
  refine ⟨db', _, hsave, hscore, hdirect, htotal, hcounted, ?_, ?_⟩
  · rw [hdirect, htotal]
    exact_mod_cast hle
  · rw [hdirect, htotal, ← hself, ← hiff, Int.ofNat_lt]

/-- The overload has one direct caller and does not call itself, so it is not counted short. -/
theorem getters_riskScore_counts :
    Graph.getters.Built ∧ Database.new.isOpen = true ∧
      ∃ m ∈ Graph.getters.nodes, m.kind = .method ∧ m.key = "get(int)" ∧
        ∃ db r, Database.new.save false Graph.getters 0 = .ok db ∧ db.riskScore "get(int)" = .ok r ∧
          0 < r.directCallers ∧ r.directCallers ≤ r.totalCallers := by
  have hwf := Graph.getters_built.wellFormed
  obtain ⟨m, hm, hkind, hkey⟩ := (hwf.find?_iff _ _ _).mp Graph.getters_find?.2.2.2.2.1
  obtain ⟨hmem, hid⟩ := hwf.node?_iff.mp hm
  obtain ⟨db, r, hsave, hscore, hdirect, -, -, -, hshort⟩ :=
    Database.riskScore_counts Graph.getters_built .new rfl 0 hmem hkind
  obtain ⟨-, -, -, -, -, hcalls⟩ := Graph.getters_linked
  have hself : ¬ Graph.getters.Linked .calls m.id m.id := by
    rintro ⟨line, hline⟩
    simp [hid, Graph.linkedAt_iff_key, Graph.getters_edges] at hline
  obtain ⟨n, hn, -⟩ := (hwf.isKind_of_calls hcalls).1
  obtain ⟨hn', hnid⟩ := hwf.node?_iff.mp hn
  have hcaller : n ∈ Graph.getters.callersOf m := ⟨hn', by rw [hnid, hid]; exact hcalls⟩
  refine ⟨Graph.getters_built, rfl, m, hmem, hkind, hkey, db, r, hsave, hkey ▸ hscore, ?_, ?_⟩
  · rw [hdirect]
    exact_mod_cast (Set.ncard_pos (Graph.finite_of_nodes fun _ hc => hc.1)).mpr ⟨n, hcaller⟩
  · exact Int.not_lt.mp fun hlt => hself (hshort.mp hlt).1

end Snapshot

/-! ## a method that calls itself -/

namespace Graph

/-- A method that calls itself. -/
def recursion : Graph :=
  (Builder.after [.fact (.method "f()"), .fact (.link .calls 1 1 1)] (Builder.new 0)).graph

theorem recursion_built : recursion.Built := ⟨0, _, rfl⟩

section
open Builder

theorem recursion_eq : recursion =
    insertEdge (insertNode empty (.method "f()" "" [])) ⟨1, .calls, 1, 1, 1, 0, certain⟩ := by
  simp [recursion, after, Operation.perform, ingest, run_map, upsertMethod, upsert_run_of_new,
    link_run, Builder.new, node?_insertNode, Text.isBlank, Symbol.key, Symbol.kind,
    Text.isBlankChar, Node.kind, EdgeKind.joins]

end

theorem mem_recursion_nodes (c : Node) :
    c ∈ recursion.nodes ↔ c = ⟨1, .method "f()" "" []⟩ := by
  simp [recursion_eq, Builder.insertEdge, Builder.insertNode, empty]

/-- The one node of the graph is its own caller. -/
theorem recursion_callers {m : Node} (hm : m ∈ recursion.nodes) :
    recursion.callersOf m = {m} ∧ recursion.callersWithin 50 m = ∅ := by
  have hcalls : recursion.Linked .calls 1 1 := by
    refine ⟨1, linkedAt_iff_key.mpr ?_⟩
    simp [recursion_eq, Edge.key]
  obtain rfl := (mem_recursion_nodes m).mp hm
  constructor
  · ext c
    refine ⟨fun hc => (mem_recursion_nodes c).mp hc.1, ?_⟩
    rintro rfl
    exact ⟨hm, hcalls⟩
  · refine Set.eq_empty_of_forall_notMem fun c hc => hc.2.1 ?_
    rw [(mem_recursion_nodes c).mp hc.1]

end Graph

/-- It is a direct caller of itself, and no caller of it is counted. -/
theorem Snapshot.recursion_counted_short :
    Graph.recursion.Built ∧ ∃ m ∈ Graph.recursion.nodes, m.kind = .method ∧
      ∃ db r, Database.new.save false Graph.recursion 0 = .ok db ∧ db.riskScore m.key = .ok r ∧
        r.directCallers = 1 ∧ r.totalCallers = 0 := by
  have hwf := Graph.recursion_built.wellFormed
  have hm := (Graph.mem_recursion_nodes _).mpr rfl
  obtain ⟨hdirect, htotal⟩ := Graph.recursion_callers hm
  obtain ⟨db, hsave, hopen, htables⟩ := Database.exists_saved .new rfl Graph.recursion 0
  have hscore := Database.riskScore_of_rows hwf hopen htables (m := ⟨1, .method "f()" "" []⟩)
    (by simpa [Graph.nodesOfKind] using ⟨hm, rfl⟩)
  refine ⟨Graph.recursion_built, _, hm, rfl, db, _, hsave, hscore, ?_, ?_⟩
  · rw [fullScoreOf, scoreOf, hwf.callerCount_eq, hdirect, Set.ncard_singleton]
    rfl
  · rw [fullScoreOf, depthLimit, htotal, Set.ncard_empty]
    rfl

end Ripple
