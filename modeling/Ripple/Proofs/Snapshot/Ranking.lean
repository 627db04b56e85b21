import Ripple.Export.Document
import Ripple.Proofs.Arranged
import Ripple.Proofs.Graph.Recording
import Ripple.Proofs.Snapshot.Callers
import Mathlib.Data.List.SplitBy
import Mathlib.Data.Prod.Lex
import Mathlib.Data.String.Basic

/-!
# Ripple.Proofs.Snapshot.Ranking

The methods with most callers, in a document and in a database.

A document counts the predecessors of a method in the graph, drops the methods without any, sorts
and cuts.  A database joins rows, groups and counts them, sorts, cuts, and drops nothing; each group
is the rows of one method (`Tables.byCallers_eq`).  Both orders are that of one list of nodes,
`Graph.ranking`: `callCounts_eq` and `byCallers_ofGraph` read the two from it.  No two methods have
the same rank, so that dropping and sorting commute, and methods without callers come last, so that
dropping and cutting do (`filter_take_of_pairwise`).
-/

namespace Ripple

open Std

/-! ## the ranking of a graph -/

namespace Graph

/-- How many methods call a method. -/
def callerCount (g : Graph) (m : Node) : Nat := (g.predecessors m.id .calls).length

/-- Most called first, then by key. -/
def ranksBefore (g : Graph) (a b : Node) : Bool :=
  decide (g.callerCount a > g.callerCount b) ||
    (g.callerCount a == g.callerCount b && decide (a.key ≤ b.key))

/-- All methods, most called first. -/
def ranking (g : Graph) : List Node := (g.nodesOfKind .method).mergeSort g.ranksBefore

/-- What a method is ranked by. -/
def rank (g : Graph) (m : Node) : ℕᵒᵈ ×ₗ String :=
  toLex (OrderDual.toDual (g.callerCount m), m.key)

theorem ranksBefore_iff (g : Graph) (a b : Node) :
    g.ranksBefore a b = true ↔ g.rank a ≤ g.rank b := by
  simp only [ranksBefore, rank, Prod.Lex.toLex_le_toLex, Bool.or_eq_true, Bool.and_eq_true,
    decide_eq_true_eq, beq_iff_eq]
  rfl

theorem mem_ranking {g : Graph} {m : Node} : m ∈ g.ranking ↔ m ∈ g.nodes ∧ m.kind = .method := by
  simp [ranking, nodesOfKind]

section
variable {g : Graph} (hg : g.WellFormed)
include hg

theorem WellFormed.nodup_ranks : ((g.nodesOfKind .method).map g.rank).Nodup := by
  have hkeys := hg.nodup_keys .method
  refine List.Nodup.of_map (fun r => (ofLex r).2) ?_
  rwa [List.map_map]

theorem WellFormed.ranking_arranged : Arranged g.rank g.ranking :=
  Arranged.mergeSort g.ranksBefore_iff hg.nodup_ranks

/-- Methods without callers come after all others. -/
theorem WellFormed.ranking_called_first : g.ranking.Pairwise fun a b =>
    decide (0 < g.callerCount b) = true → decide (0 < g.callerCount a) = true := by
  refine hg.ranking_arranged.imp fun {a b} hlt hb => ?_
  have hab := (g.ranksBefore_iff a b).mpr hlt.le
  simp only [ranksBefore, Bool.or_eq_true, Bool.and_eq_true, decide_eq_true_eq, beq_iff_eq]
    at hab hb ⊢
  omega

end

end Graph

/-! ## the ranking of a document -/

namespace Export

/-- A method with its counts. -/
def CallCount.ofNode (g : Graph) (m : Node) : CallCount :=
  ⟨m.id, m.key, g.callerCount m, (g.successors m.id .calls).length⟩

theorem callCounts_eq {g : Graph} (hg : g.WellFormed) :
    callCounts g = (g.ranking.filter fun m => decide (0 < g.callerCount m)).map (.ofNode g) := by
  have hcount : (g.nodesOfKind .method).map (fun m => CallCount.mk m.id (signatureOf m.symbol)
      (g.predecessors m.id .calls).length (g.successors m.id .calls).length) =
      (g.nodesOfKind .method).map (.ofNode g) := by
    refine List.map_congr_left fun m hm => ?_
    have hkind : m.kind = .method := beq_iff_eq.mp (List.mem_filter.mp hm).2
    obtain ⟨signature, _, _, hsymbol, hkey, -⟩ := Node.eq_method hkind
    rw [CallCount.ofNode, hkey, hsymbol]
    rfl
  -- the methods that are not called are dropped before sorting here, and after it in the ranking
  rw [Graph.ranking, ← Arranged.mergeSort_filter g.ranksBefore_iff hg.nodup_ranks]
  simp only [callCounts, hcount, List.filter_map]
  symm
  apply List.map_mergeSort
  intro a _ b _
  rfl

theorem impactRows_eq {g : Graph} (hg : g.WellFormed) {limit : Int} (hlimit : 0 < limit) :
    impactRows g limit = ((g.ranking.take limit.toNat).filter
      fun m => decide (0 < g.callerCount m)).map (.ofNode g) := by
  rw [impactRows, if_pos hlimit, callCounts_eq hg, ← List.map_take,
    filter_take_of_pairwise hg.ranking_called_first]

end Export

/-! ## the ranking of a database -/

namespace Snapshot

theorem directCallers_ofGraph {g : Graph} (hg : g.WellFormed) (now : Timestamp) (id : NodeId) :
    directCallers (sourcesByTarget (.ofGraph g now) .calls) id =
      (g.predecessors id .calls).length := by
  unfold directCallers
  congr 1
  have hle : Arranged (fun x : NodeId => x) (NodeId.setOf
      ((sourcesByTarget (.ofGraph g now) .calls).getD id [])) := NodeId.pairwise_setOf _
  refine hle.ext (NodeId.pairwise_setOf _) ?_ ?_
  · intro x hx
    rw [NodeId.mem_setOf, mem_sourcesByTarget, links_ofGraph] at hx
    exact hg.mem_predecessors.mpr hx
  · intro x hx
    rw [NodeId.mem_setOf, mem_sourcesByTarget, links_ofGraph]
    exact hg.mem_predecessors.mp hx

/-! ## joining and grouping -/

theorem NodeRow.joined_ne_nil (callers : HashMap Int (List Int)) (row : NodeRow) :
    row.joined callers ≠ [] := by
  rw [joined]
  split
  · simp
  · next hne => simpa using hne

theorem NodeRow.row_of_mem_joined {callers : HashMap Int (List Int)} {row : NodeRow} {j : JoinedRow}
    (h : j ∈ row.joined callers) : j.row = row := by
  rw [joined] at h
  split at h
  · rw [List.mem_singleton.mp h]
  · obtain ⟨x, -, rfl⟩ := List.mem_map.mp h
    rfl

/-- The rows of one method count its direct callers. -/
theorem CalledRow.ofGroup?_joined (callers : HashMap Int (List Int)) (row : NodeRow) :
    ofGroup? (row.joined callers) = some ⟨row, directCallers callers row.id⟩ := by
  rw [ofGroup?, NodeRow.joined, directCallers]
  cases callers.getD row.id [] with
  | nil => rfl
  | cons x xs => simp [List.filterMap_map]

/-- Where no number comes twice, grouping undoes the join. -/
theorem splitBy_joined (callers : HashMap Int (List Int)) {rows : List NodeRow}
    (h : (rows.map (·.id)).Nodup) :
    ((rows.flatMap (·.joined callers)).splitBy fun a b => a.row.id == b.row.id) =
      rows.map (·.joined callers) := by
  rw [List.flatMap_def]
  refine List.splitBy_flatten ?_ ?_ ?_
  · intro hmem
    obtain ⟨row, -, hnil⟩ := List.mem_map.mp hmem
    exact row.joined_ne_nil callers hnil
  · intro m hm
    obtain ⟨row, -, rfl⟩ := List.mem_map.mp hm
    refine List.Pairwise.isChain (List.pairwise_of_forall_mem_list fun a ha b hb => ?_)
    rw [NodeRow.row_of_mem_joined ha, NodeRow.row_of_mem_joined hb]
    exact BEq.rfl
  · refine List.Pairwise.isChain (List.pairwise_map.mpr ((List.pairwise_map.mp h).imp ?_))
    intro a b hne
    refine ⟨a.joined_ne_nil callers, b.joined_ne_nil callers, ?_⟩
    rw [NodeRow.row_of_mem_joined (List.getLast_mem _), NodeRow.row_of_mem_joined (List.head_mem _)]
    exact beq_eq_false_iff_ne.mpr hne

/-- **Join and group**: the ranking counts the direct callers of each method. -/
theorem Tables.byCallers_eq {t : Tables} (h : (t.methods.map (·.id)).Nodup) :
    t.byCallers = ((t.methods.mergeSort fun a b => decide (a.id ≤ b.id)).map fun row =>
      CalledRow.mk row (directCallers (sourcesByTarget t .calls) row.id)).mergeSort
        CalledRow.le := by
  have hrows : ((t.methods.mergeSort fun a b => decide (a.id ≤ b.id)).map (·.id)).Nodup :=
    ((List.mergeSort_perm _ _).map _).nodup_iff.mpr h
  simp only [byCallers, splitBy_joined _ hrows, List.filterMap_map, Function.comp_def,
    CalledRow.ofGroup?_joined, List.filterMap_eq_map']

/-! ## rows of a graph -/

/-- The row of a method with the number of its callers. -/
def CalledRow.ofNode (g : Graph) (m : Node) : CalledRow := ⟨.ofNode m, g.callerCount m⟩

theorem methods_ofGraph (g : Graph) (now : Timestamp) :
    (Tables.ofGraph g now).methods = (g.nodesOfKind .method).map NodeRow.ofNode := by
  rw [Tables.methods, Tables.ofGraph, List.filter_map, Graph.nodesOfKind]
  congr 1
  refine List.filter_congr fun n _ => ?_
  rw [Function.comp_apply, NodeRow.ofNode_kind]
  cases n.kind <;> rfl

/-- The score that a database gives a method. -/
def scoreOf (g : Graph) (t : Tables) (m : Node) : RiskScore :=
  ⟨m.id, m.key, declaringFile t (sourcesByTarget t .contains) m.id, g.callerCount m,
    g.callerCount m, (RiskLevel.ofDirectCallers (g.callerCount m)).word⟩

section
variable {g : Graph} (hg : g.WellFormed)
include hg

/-- A method has its key as signature. -/
theorem signature_ofNode {m : Node} (hm : m ∈ g.nodesOfKind .method) :
    (NodeRow.ofNode m).signature = some m.key := by
  obtain ⟨hmem, hkind⟩ := List.mem_filter.mp hm
  have hblank := hg.key_not_blank m (Array.mem_toList_iff.mp hmem)
  obtain ⟨signature, returnType, parameterTypes, hsymbol, hkey, -⟩ :=
    Node.eq_method (beq_iff_eq.mp hkind)
  have hempty : signature ≠ "" := by
    rintro rfl
    rw [hkey] at hblank
    exact absurd hblank (by decide)
  rw [NodeRow.ofNode, hsymbol, hkey]
  exact if_neg hempty

theorem byCallers_ofGraph (now : Timestamp) :
    (Tables.ofGraph g now).byCallers = g.ranking.map (.ofNode g) := by
  have hrows : ((g.nodesOfKind .method).map NodeRow.ofNode).mergeSort
      (fun a b => decide (a.id ≤ b.id)) = (g.nodesOfKind .method).map NodeRow.ofNode := by
    apply List.mergeSort_of_pairwise
    rw [List.pairwise_map]
    simp only [NodeRow.ofNode_id]
    exact (hg.nodes_pairwise.filter _).imp fun h => decide_eq_true (Int.le_of_lt h)
  have hids : ((Tables.ofGraph g now).methods.map (·.id)).Nodup :=
    (lawful_ofGraph hg now).node_ids.sublist (List.filter_sublist.map _)
  rw [Tables.byCallers_eq hids]
  simp only [methods_ofGraph, hrows, List.map_map, Function.comp_def, directCallers_ofGraph hg,
    NodeRow.ofNode_id]
  symm
  apply List.map_mergeSort
  intro a ha b hb
  simp only [CalledRow.le, CalledRow.ofNode, signature_ofNode hg ha, signature_ofNode hg hb,
    columnLe]
  rfl

/-- What the database ranks first under a limit, which is none if negative. -/
theorem topRisky_eq (now : Timestamp) (limit : Int) :
    (Tables.ofGraph g now).topRisky limit =
      .ok ((if limit < 0 then g.ranking else g.ranking.take limit.toNat).map
        (scoreOf g (.ofGraph g now))) := by
  have hlisted : (if limit < 0 then g.ranking.map (CalledRow.ofNode g)
      else (g.ranking.map (CalledRow.ofNode g)).take limit.toNat) =
        (if limit < 0 then g.ranking else g.ranking.take limit.toNat).map (.ofNode g) := by
    split
    · rfl
    · rw [List.map_take]
  simp only [Tables.topRisky, byCallers_ofGraph hg, hlisted, List.mapM_map]
  refine mapM_eq_ok fun m hm => ?_
  have hranked : m ∈ g.ranking := by
    split at hm
    · exact hm
    · exact List.mem_of_mem_take hm
  have hmethod : m ∈ g.nodesOfKind .method := List.mem_mergeSort.mp hranked
  simp only [Function.comp_apply, CalledRow.ofNode, signature_ofNode hg hmethod, NodeRow.ofNode_id,
    scoreOf]

theorem topRisky_ofGraph (now : Timestamp) {limit : Int} (hlimit : 0 < limit) :
    (Tables.ofGraph g now).topRisky limit =
      .ok ((g.ranking.take limit.toNat).map (scoreOf g (.ofGraph g now))) := by
  rw [topRisky_eq hg, if_neg (by omega)]

end

/-- The scores of methods that are called. -/
def called (scores : List RiskScore) : List RiskScore :=
  scores.filter fun s => decide (0 < s.directCallers)

theorem called_map_scoreOf (g : Graph) (t : Tables) (ms : List Node) :
    called (ms.map (scoreOf g t)) =
      (ms.filter fun m => decide (0 < g.callerCount m)).map (scoreOf g t) := by
  rw [called, List.filter_map]
  congr 1
  refine List.filter_congr fun m _ => ?_
  simp [scoreOf]

end Snapshot

/-! ## the table -/

namespace Export

/-- The row of a score. -/
def scoreRow (g : Graph) (s : RiskScore) : String :=
  let types := orDash (Text.join ", " (typeNames g s.id))
  let callees := (g.successors s.id .calls).length
  let icon := RiskLevel.icon s.level
  s!"| `{s.signature}` | {types} | {s.directCallers} | {callees} | {icon} {s.level} |\n"

/-- A table of scores, unless there are none. -/
def scoreTable (g : Graph) (scores : List RiskScore) : String :=
  if scores.isEmpty then ""
  else
    "---\n\n## Change impact quick reference\n\n" ++
      "| Method | Declared in | Called by | Calls | Risk |\n" ++
      "|--------|-------------|-----------|-------|------|\n" ++
      Display.concat (scoreRow g) scores ++ "\n"

theorem concat_map {α β : Type} (f : β → String) (h : α → β) (l : List α) :
    Display.concat f (l.map h) = Display.concat (fun a => f (h a)) l := by
  induction l with
  | nil => rfl
  | cons a l ih => exact congrArg (f (h a) ++ ·) ih

/-- The table of impact is that of the scores of its methods. -/
theorem impactTable_eq {g : Graph} {limit : Int} {ms : List Node}
    (h : impactRows g limit = ms.map (.ofNode g)) (t : Snapshot.Tables) :
    impactTable g limit = scoreTable g (ms.map (Snapshot.scoreOf g t)) := by
  simp only [impactTable, scoreTable, h, List.isEmpty_map, concat_map]
  rfl

/-- A document ends with the table of impact, and nothing before it depends on its size. -/
theorem document_eq (g : Graph) (opts : Options) (generated : String) :
    ∃ front, ∀ limit, document g { opts with impactRows := limit } generated =
      front ++ impactTable g limit := by
  -- the condition of the diagram mentions all options, so it is decided first
  by_cases hdiagram : (opts.diagram &&
      !((g.nodesOfKind .file).mergeSort fun a b => decide (a.key ≤ b.key)).isEmpty) = true
  · simp only [document, if_pos hdiagram]
    exact ⟨_, fun _ => rfl⟩
  · simp only [document, if_neg hdiagram]
    exact ⟨_, fun _ => rfl⟩

end Export

/-- **Rankings agree**: for every graph that a builder holds and that was saved, and for every
positive limit, the table that ends a document is that of the methods which the database ranks first
under this limit, without those that nobody calls: the same methods in the same order, with the same
numbers of callers and the same levels. -/
theorem Snapshot.Database.document_topRisky {g : Graph} (hg : g.Built) (db : Database)
    (hopen : db.isOpen = true) (now : Timestamp) (opts : Export.Options) (generated : String) :
    ∃ db' front, db.save false g now = .ok db' ∧ ∀ limit : Int, 0 < limit →
      ∃ scores, db'.topRisky limit = .ok scores ∧
        (Export.impactRows g limit).map (fun c => (c.id, c.signature, (c.callers : Int),
            (RiskLevel.ofDirectCallers c.callers).word)) =
          (called scores).map (fun s => (s.id, s.signature, s.directCallers, s.level)) ∧
        Export.document g { opts with impactRows := limit } generated =
          front ++ Export.scoreTable g (called scores) := by
  obtain ⟨front, hfront⟩ := Export.document_eq g opts generated
  refine ⟨{ db with tables := .ofGraph g now }, front, save_of_open hopen g now, ?_⟩
  intro limit hlimit
  have hrows := Export.impactRows_eq hg.wellFormed hlimit
  refine ⟨(g.ranking.take limit.toNat).map (scoreOf g (.ofGraph g now)), ?_, ?_, ?_⟩
  · have hstored : access { db with tables := .ofGraph g now } false = .ok (.ofGraph g now) :=
      access_of_open hopen
    rw [topRisky, hstored]
    change ((Tables.ofGraph g now).topRisky limit).mapError ScoreError.toFailure = _
    rw [topRisky_ofGraph hg.wellFormed now hlimit]
    rfl
  · rw [hrows, called_map_scoreOf, List.map_map, List.map_map]
    rfl
  · rw [hfront, called_map_scoreOf, ← Export.impactTable_eq hrows]

/-- A table with room for one method has a row, and the database ranks that method first. -/
theorem Snapshot.getters_topRisky :
    Graph.getters.Built ∧ Database.new.isOpen = true ∧
      ∃ db scores c, Database.new.save false Graph.getters 0 = .ok db ∧ db.topRisky 1 = .ok scores ∧
        Export.impactRows Graph.getters 1 = [c] ∧
        (called scores).map (fun s => (s.id, s.signature, s.directCallers, s.level)) =
          [(c.id, c.signature, (c.callers : Int), (RiskLevel.ofDirectCallers c.callers).word)] := by
  obtain ⟨db, front, hsave, htables⟩ :=
    Database.document_topRisky Graph.getters_built .new rfl 0 {} ""
  obtain ⟨scores, hscores, hrows, -⟩ := htables 1 (by decide)
  have hg := Graph.getters_built.wellFormed
  obtain ⟨-, -, -, -, -, hcalls⟩ := Graph.getters_linked
  -- the overload is called, so the table is not empty
  obtain ⟨m, hm, hkind⟩ := (hg.isKind_of_calls hcalls).2
  obtain ⟨hmem, hid⟩ := hg.node?_iff.mp hm
  have hcalled : 0 < Graph.getters.callerCount m :=
    List.length_pos_of_mem (hg.mem_predecessors.mpr (hid ▸ hcalls))
  have hcount : Export.CallCount.ofNode Graph.getters m ∈ Export.callCounts Graph.getters := by
    rw [Export.callCounts_eq hg]
    refine List.mem_map_of_mem (List.mem_filter.mpr ⟨?_, decide_eq_true hcalled⟩)
    exact Graph.mem_ranking.mpr ⟨hmem, hkind⟩
  obtain ⟨c, rest, hcounts⟩ := List.exists_cons_of_ne_nil (List.ne_nil_of_mem hcount)
  have hone : Export.impactRows Graph.getters 1 = [c] := by
    rw [Export.impactRows, if_pos (by decide), hcounts]
    rfl
  rw [hone] at hrows
  exact ⟨Graph.getters_built, rfl, db, scores, c, hsave, hscores, hone, hrows.symm⟩

end Ripple
