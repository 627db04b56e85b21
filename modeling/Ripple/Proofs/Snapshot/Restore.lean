import Ripple.Proofs.Arranged
import Ripple.Proofs.Snapshot.RoundTrip

/-!
# Ripple.Proofs.Snapshot.Restore

Which rows are a graph, and which graph they are.

The tables may hold anything that their constraints allow: rows with gaps between their numbers,
texts that mean nothing, edges without ends.  `NodeRow.Loadable` and `EdgeRow.Loadable` say of a
row, beside the rows of nodes, that it can be loaded, and `Restores` what graph the rows are: one
node and one edge for each, in their order, where `Place` leads from the stored number of a row to
that of its node.

`Replayed` is the invariant of the replay.  A row that can be loaded is appended (`Replayed.node`,
`Replayed.edge`), and is never merged with an earlier one: rows of nodes differ in kind or key, and
places tell the ends of edges apart.  A row that cannot be loaded stops the replay
(`loadable_of_loadNode`, `Replayed.loadable_of_loadEdge`).  `replay_iff` joins the two loops.
-/

namespace Ripple.Snapshot

open Std
open Builder (insertNode insertEdge)

/-! ## constraints of the tables -/

/-- Row numbers are distinct, no kind and key has two rows, nor has a fact on a line.  The ends of
an edge need not be there. -/
structure Tables.Keyed (t : Tables) : Prop where
  node_ids : (t.nodes.map (·.id)).Nodup
  node_keys : (t.nodes.map fun r => (r.kind, r.key)).Nodup
  edge_ids : (t.edges.map (·.id)).Nodup
  edge_facts : (t.edges.map fun r => (r.kind, r.source, r.target, r.line)).Nodup

/-! ## rows that can be loaded -/

/-- The column with the list that a node of this kind has. -/
def NodeRow.listed (row : NodeRow) : NodeKind → Option String
  | .file | .type => none
  | .field => row.fieldTypes
  | .method => row.parameterTypes

/-- A row of a node has one of the four kinds, a key, and a list that can be read where its kind has
one. -/
def NodeRow.Loadable (row : NodeRow) : Prop :=
  ∃ kind : NodeKind, row.kind = kind.label ∧ Text.isBlank row.key = false ∧
    ∃ items, listOf (row.listed kind) = .ok items

/-- A row of an edge joins two rows of nodes, of kinds that its own kind may join. -/
def EdgeRow.Loadable (nodes : List NodeRow) (row : EdgeRow) : Prop :=
  ∃ (kind : EdgeKind) (s t : NodeRow) (ks kt : NodeKind), row.kind = kind.label ∧
    s ∈ nodes ∧ s.id = row.source ∧ s.kind = ks.label ∧
    t ∈ nodes ∧ t.id = row.target ∧ t.kind = kt.label ∧ kind.joins ks kt = true

theorem ofLabel?_eq_some_iff {text : String} {kind : NodeKind} :
    NodeKind.ofLabel? text = some kind ↔ text = kind.label := by
  constructor
  · intro h
    have hlabel := List.find?_some h
    exact (beq_iff_eq.mp hlabel).symm
  · rintro rfl
    exact ofLabel?_label kind

theorem ofText_eq_kind_iff {text : String} {kind : EdgeKind} :
    EdgeLabel.ofText text = .kind kind ↔ text = kind.label := by
  constructor
  · intro h
    unfold EdgeLabel.ofText at h
    split at h
    · next k hk =>
        cases h
        have hlabel := List.find?_some hk
        exact (beq_iff_eq.mp hlabel).symm
    · cases h
  · rintro rfl
    exact ofText_label kind

/-- What a row stands for has its kind and its key. -/
theorem NodeRow.symbol?_mention {row : NodeRow} {s : Symbol} (h : row.symbol? = some s) :
    s.kind.label = row.kind ∧ s.key = row.key := by
  unfold symbol? at h
  split at h
  · next hkind => cases h; exact ⟨(ofLabel?_eq_some_iff.mp hkind).symm, rfl⟩
  · next hkind => cases h; exact ⟨(ofLabel?_eq_some_iff.mp hkind).symm, rfl⟩
  · next hkind =>
      obtain ⟨types, -, rfl⟩ := Option.map_eq_some_iff.mp h
      obtain ⟨hfield, hkey⟩ := foldl_withFieldType_kind types (.field row.key [])
      rw [hfield, hkey]
      exact ⟨(ofLabel?_eq_some_iff.mp hkind).symm, rfl⟩
  · next hkind =>
      obtain ⟨params, -, rfl⟩ := Option.map_eq_some_iff.mp h
      exact ⟨(ofLabel?_eq_some_iff.mp hkind).symm, rfl⟩
  · cases h

/-- A row that can be loaded stands for something. -/
theorem NodeRow.Loadable.exists_symbol {row : NodeRow} (h : row.Loadable) :
    ∃ s, row.symbol? = some s := by
  obtain ⟨kind, hkind, -, items, hitems⟩ := h
  unfold symbol?
  rw [hkind, ofLabel?_label]
  cases kind with
  | file => exact ⟨_, rfl⟩
  | type => exact ⟨_, rfl⟩
  | field => exact ⟨_, by rw [show listOf row.fieldTypes = .ok items from hitems]; rfl⟩
  | method => exact ⟨_, by rw [show listOf row.parameterTypes = .ok items from hitems]; rfl⟩

/-! ## steps that succeed -/

theorem Loading.eq_ok_of_lift {ε : Type} {f : GraphError → ε} {x : Ingest α} {b b' : Builder}
    {a : α} (h : (Loading.lift f x).run b = (.ok a, b')) : x.run b = (.ok a, b') := by
  change ((x.run b).1.mapError f, (x.run b).2) = _ at h
  rcases hx : x.run b with ⟨e | a', b₁⟩
  · rw [hx] at h
    cases h
  · rw [hx] at h
    cases h
    rfl

theorem eq_ok_of_liftExcept {r : Except RowProblem α} {b b' : Builder} {a : α}
    (h : loadNode.liftExcept r b = (.ok a, b')) : r = .ok a :=
  congrArg Prod.fst h

/-- An upsert that succeeds was given a key. -/
theorem key_of_upsert {s : Symbol} {b b' : Builder} {id : NodeId}
    (h : (Builder.upsert s).run b = (.ok id, b')) : Text.isBlank s.key = false := by
  by_contra hblank
  simp only [Builder.upsert, ExceptT.run, Bool.not_eq_false] at h hblank
  rw [if_pos hblank] at h
  split at h <;> cases h

/-- A row that loads can be loaded. -/
theorem loadable_of_loadNode {row : NodeRow} {b b' : Builder} {id : NodeId}
    (h : (loadNode row).run b = (.ok id, b')) : row.Loadable := by
  unfold loadNode at h
  split at h
  · next hkind =>
      have hupsert := Loading.eq_ok_of_lift h
      exact ⟨.file, ofLabel?_eq_some_iff.mp hkind, key_of_upsert hupsert, [], rfl⟩
  · next hkind =>
      obtain ⟨_, _, hupsert, -⟩ := run_bind_eq_ok (Loading.eq_ok_of_lift h)
      exact ⟨.type, ofLabel?_eq_some_iff.mp hkind, key_of_upsert hupsert, [], rfl⟩
  · next hkind =>
      obtain ⟨_, _, hupsert, hrest⟩ := run_bind_eq_ok h
      obtain ⟨types, _, hlist, -⟩ := run_bind_eq_ok hrest
      exact ⟨.field, ofLabel?_eq_some_iff.mp hkind, key_of_upsert (Loading.eq_ok_of_lift hupsert),
        types, eq_ok_of_liftExcept hlist⟩
  · next hkind =>
      obtain ⟨_, _, hupsert, hrest⟩ := run_bind_eq_ok h
      obtain ⟨params, _, hlist, -⟩ := run_bind_eq_ok hrest
      exact ⟨.method, ofLabel?_eq_some_iff.mp hkind, key_of_upsert (Loading.eq_ok_of_lift hupsert),
        params, eq_ok_of_liftExcept hlist⟩
  · cases h

/-- So can all rows of a loop that goes through. -/
theorem loadable_of_loadNodes {rows : List NodeRow} {ids ids' : Renumbering} {b b' : Builder}
    (h : (loadNodes ids rows).run b = (.ok ids', b')) : ∀ row ∈ rows, row.Loadable := by
  induction rows generalizing ids b with
  | nil => exact fun row hrow => absurd hrow List.not_mem_nil
  | cons row rest ih =>
      rw [loadNodes, ExceptT.run] at h
      split at h
      · next id b₁ hrun => exact List.forall_mem_cons.mpr ⟨loadable_of_loadNode hrun, ih h⟩
      · cases h

/-! ## places -/

/-- A row has the stored number, and its node the new one: nodes are numbered in order of rows. -/
def Place (rows : List NodeRow) (stored : Int) (id : NodeId) : Prop :=
  ∃ (i : Nat) (row : NodeRow), rows[i]? = some row ∧ row.id = stored ∧ id = i + 1

/-- The renumbering leads from the stored number of each row to its place. -/
def Renumbers (rows : List NodeRow) (ids : Renumbering) : Prop :=
  ∀ stored id, ids[stored]? = some id ↔ Place rows stored id

theorem Place.injective {rows : List NodeRow} {x y : Int} {id : NodeId} (hx : Place rows x id)
    (hy : Place rows y id) : x = y := by
  obtain ⟨i, r, hr, rfl, rfl⟩ := hx
  obtain ⟨j, s, hs, rfl, hij⟩ := hy
  obtain rfl : i = j := Int.natCast_inj.mp ((Int.add_left_inj 1).mp hij)
  rw [hr, Option.some.injEq] at hs
  rw [hs]

theorem place_concat {rows : List NodeRow} {row : NodeRow} {x : Int} {id : NodeId} :
    Place (rows ++ [row]) x id ↔ Place rows x id ∨ x = row.id ∧ id = rows.length + 1 := by
  simp only [Place, List.getElem?_append, List.getElem?_singleton]
  constructor
  · rintro ⟨i, r, hr, rfl, rfl⟩
    split at hr
    · exact .inl ⟨i, r, hr, rfl, rfl⟩
    · split at hr
      · cases hr
        have hlast : i = rows.length := by omega
        exact .inr ⟨rfl, by rw [hlast]⟩
      · cases hr
  · rintro (⟨i, r, hr, rfl, rfl⟩ | ⟨rfl, rfl⟩)
    · exact ⟨i, r, by rw [if_pos (List.getElem?_eq_some_iff.mp hr).1]; exact hr, rfl, rfl⟩
    · exact ⟨rows.length, row, by simp, rfl, rfl⟩

theorem renumbers_nil : Renumbers [] ∅ := by
  simp [Renumbers, Place]

/-- The next row gets the next number. -/
theorem Renumbers.insert {rows : List NodeRow} {ids : Renumbering} (h : Renumbers rows ids)
    {row : NodeRow} (hnew : ∀ r ∈ rows, r.id ≠ row.id) :
    Renumbers (rows ++ [row]) (ids.insert row.id (rows.length + 1)) := by
  intro x id
  have hplace : ∀ id, ¬Place rows row.id id := by
    rintro id ⟨i, r, hr, hid, -⟩
    exact hnew r (List.mem_of_getElem? hr) hid
  rw [place_concat, HashMap.getElem?_insert]
  split
  · next heq =>
      obtain rfl := beq_iff_eq.mp heq
      simp [hplace, eq_comm]
  · next hne =>
      have hx : x ≠ row.id := fun heq => hne (beq_iff_eq.mpr heq.symm)
      simp [h x id, hx]

/-! ## the graph of some rows -/

/-- A node has the kind and the key of a row, and is what the row stands for. -/
structure NodeRow.Makes (row : NodeRow) (n : Node) : Prop where
  kind : n.kind.label = row.kind
  key : n.key = row.key
  symbol : row.symbol? = some n.symbol

/-- An edge has the columns of a row, and joins the nodes of the rows to which that refers. -/
structure EdgeRow.Makes (rows : List NodeRow) (row : EdgeRow) (e : Edge) : Prop where
  kind : e.kind.label = row.kind
  source : Place rows row.source e.source
  target : Place rows row.target e.target
  line : e.line = row.line
  createdAt : e.createdAt = row.createdAt
  confidence : e.confidence = row.confidence

/-- A graph has a node for each row of nodes and an edge for each row of edges, in their order.
Being well formed, it numbers both from 1. -/
structure Restores (rows : List NodeRow) (edgeRows : List EdgeRow) (g : Graph) : Prop where
  wellFormed : g.WellFormed
  nodes : List.Forall₂ NodeRow.Makes rows g.nodes.toList
  edges : List.Forall₂ (EdgeRow.Makes rows) edgeRows g.edges.toList

theorem restores_nil : Restores [] [] Graph.empty := ⟨Graph.wellFormed_empty, .nil, .nil⟩

namespace Restores

variable {rows : List NodeRow} {edgeRows : List EdgeRow} {g : Graph}

theorem size_nodes (hg : Restores rows edgeRows g) : g.nodes.size = rows.length := by
  rw [hg.nodes.length_eq, Array.length_toList]

/-- Each row has a node, which is found at its place. -/
theorem node_of_row (hg : Restores rows edgeRows g) {i : Nat} {row : NodeRow}
    (h : rows[i]? = some row) : ∃ n, g.node? (i + 1) = some n ∧ row.Makes n := by
  obtain ⟨n, hn, hmakes⟩ := exists_getElem?_of_forall₂ hg.nodes h
  have hpos : (1 : Int) ≤ i + 1 := by omega
  have hplace : ((i : Int) + 1 - 1).toNat = i := by omega
  refine ⟨n, ?_, hmakes⟩
  rw [Graph.node?, if_pos hpos, hplace, ← Array.getElem?_toList, hn]

/-- A node found at the place of a stored number comes from the row with that number. -/
theorem row_of_place (hg : Restores rows edgeRows g) {x : Int} {id : NodeId} {n : Node}
    (hplace : Place rows x id) (hn : g.node? id = some n) :
    ∃ row ∈ rows, row.id = x ∧ row.Makes n := by
  obtain ⟨i, row, hrow, hid, rfl⟩ := hplace
  obtain ⟨m, hm, hmakes⟩ := hg.node_of_row hrow
  rw [hm, Option.some.injEq] at hn
  exact ⟨row, List.mem_of_getElem? hrow, hid, hn ▸ hmakes⟩

/-- A row with a kind and key of its own is not in the graph. -/
theorem find?_eq_none (hg : Restores rows edgeRows g) {row : NodeRow} {s : Symbol}
    (hs : row.symbol? = some s) (hnew : ∀ r ∈ rows, (r.kind, r.key) ≠ (row.kind, row.key)) :
    g.find? s.kind s.key = none := by
  cases hfind : g.find? s.kind s.key with
  | none => rfl
  | some id =>
      obtain ⟨n, hn, hkind, hkey⟩ := (hg.wellFormed.find?_iff _ _ _).mp hfind
      have hmem : n ∈ g.nodes.toList := Array.mem_toList_iff.mpr (hg.wellFormed.node?_iff.mp hn).1
      obtain ⟨r, hr, hmakes⟩ := exists_of_forall₂_of_mem hg.nodes hmem
      obtain ⟨hlabel, hname⟩ := row.symbol?_mention hs
      refine absurd ?_ (hnew r hr)
      rw [← hmakes.kind, ← hmakes.key, hkind, hkey, hlabel, hname]

/-- The node of a new row is appended. -/
theorem insertNode (hg : Restores rows [] g) {row : NodeRow} {s : Symbol}
    (hs : row.symbol? = some s) (hkey : Text.isBlank s.key = false)
    (hnew : g.find? s.kind s.key = none) : Restores (rows ++ [row]) [] (insertNode g s) where
  wellFormed := hg.wellFormed.insertNode s hkey hnew
  nodes := by
    obtain ⟨hlabel, hname⟩ := row.symbol?_mention hs
    simp only [Builder.insertNode, Array.toList_push]
    exact List.rel_append hg.nodes (.cons ⟨hlabel, hname, hs⟩ .nil)
  edges := by
    -- without rows of edges there are no edges, so none can refer to the old list of rows
    rw [Graph.edges_insertNode, List.forall₂_nil_left_iff.mp hg.edges]
    exact .nil

/-- The edge of a new row is appended. -/
theorem insertEdge (hg : Restores rows edgeRows g) {row : EdgeRow} {e : Edge} {s t : Node}
    (hmakes : row.Makes rows e) (hid : e.id = g.edges.size + 1) (hs : g.node? e.source = some s)
    (ht : g.node? e.target = some t) (hjoin : e.kind.joins s.kind t.kind = true)
    (hnew : e.key ∉ g.seen) : Restores rows (edgeRows ++ [row]) (insertEdge g e) where
  wellFormed := hg.wellFormed.insertEdge e hid hs ht hjoin hnew
  nodes := hg.nodes
  edges := by
    rw [Graph.edges_insertEdge, Array.toList_push]
    exact List.rel_append hg.edges (.cons hmakes .nil)

/-- A row that states a fact of its own has no edge yet. -/
theorem not_mem_seen (hg : Restores rows edgeRows g) {row : EdgeRow} {e : Edge}
    (hmakes : row.Makes rows e) (hnew : ∀ r ∈ edgeRows,
      (r.kind, r.source, r.target, r.line) ≠ (row.kind, row.source, row.target, row.line)) :
    e.key ∉ g.seen := by
  intro hseen
  obtain ⟨d, hd, hkey⟩ := (hg.wellFormed.seen_iff _).mp hseen
  obtain ⟨r, hr, hmakes'⟩ := exists_of_forall₂_of_mem hg.edges (Array.mem_toList_iff.mpr hd)
  obtain ⟨hkind, hsource, htarget, hline⟩ := EdgeKey.mk.inj hkey
  -- the ends agree as new numbers, hence as stored ones
  have hsource' : r.source = row.source := hmakes'.source.injective (hsource ▸ hmakes.source)
  have htarget' : r.target = row.target := hmakes'.target.injective (htarget ▸ hmakes.target)
  refine hnew r hr ?_
  rw [← hmakes'.kind, ← hmakes'.line, hkind, hline, hmakes.kind, hmakes.line, hsource', htarget']

end Restores

/-! ## the replay -/

/-- A builder that was fed these rows, and nothing else. -/
structure Replayed (rows : List NodeRow) (edgeRows : List EdgeRow) (b : Builder) : Prop where
  unfrozen : b.frozen = false
  restores : Restores rows edgeRows b.graph

namespace Replayed

variable {rows done : List NodeRow} {edgeRows : List EdgeRow} {b : Builder} {ids : Renumbering}

/-- One row of a node, if it can be loaded, becomes the next node. -/
theorem node (hb : Replayed done [] b) {row : NodeRow} (hrow : row.Loadable)
    (hnew : ∀ r ∈ done, (r.kind, r.key) ≠ (row.kind, row.key)) :
    ∃ b', (loadNode row).run b = (.ok (done.length + 1), b') ∧ Replayed (done ++ [row]) [] b' := by
  obtain ⟨s, hs⟩ := hrow.exists_symbol
  obtain ⟨_, -, hblank, -⟩ := hrow
  have hkey : Text.isBlank s.key = false := (row.symbol?_mention hs).2 ▸ hblank
  have hfind := hb.restores.find?_eq_none hs hnew
  refine ⟨{ b with graph := insertNode b.graph s }, ?_, hb.unfrozen,
    hb.restores.insertNode hs hkey hfind⟩
  rw [loadNode_run_of_new hs hb.unfrozen hkey hfind, hb.restores.size_nodes]

/-- All rows of nodes. -/
theorem nodes {rest : List NodeRow} (hb : Replayed done [] b) (hids : Renumbers done ids)
    (hrows : ∀ row ∈ rest, row.Loadable) (hnumbers : ((done ++ rest).map (·.id)).Nodup)
    (hkeys : ((done ++ rest).map fun r => (r.kind, r.key)).Nodup) :
    ∃ ids' b', (loadNodes ids rest).run b = (.ok ids', b') ∧ Replayed (done ++ rest) [] b' ∧
      Renumbers (done ++ rest) ids' := by
  induction rest generalizing done b ids with
  | nil =>
      rw [List.append_nil]
      exact ⟨ids, b, rfl, hb, hids⟩
  | cons row rest ih =>
      obtain ⟨hrow, hrest⟩ := List.forall_mem_cons.mp hrows
      obtain ⟨b', hrun, hb'⟩ := hb.node hrow (forall_ne_of_nodup_map hkeys)
      have hids' := hids.insert (forall_ne_of_nodup_map hnumbers)
      rw [loadNodes_cons_of_ok hrun]
      rw [List.append_cons] at hnumbers hkeys ⊢
      exact ih hb' hids' hrest hnumbers hkeys

/-- The number from which an edge row starts, or at which it ends, is that of a node exactly if the
row refers to one. -/
theorem getD_of_row (hb : Replayed rows edgeRows b) (hids : Renumbers rows ids) {row : NodeRow}
    (hrow : row ∈ rows) : ∃ n, b.graph.node? (ids.getD row.id 0) = some n ∧ row.Makes n ∧
      Place rows row.id (ids.getD row.id 0) := by
  obtain ⟨i, hi⟩ := List.mem_iff_getElem?.mp hrow
  obtain ⟨n, hn, hmakes⟩ := hb.restores.node_of_row hi
  have hplace : Place rows row.id (i + 1) := ⟨i, row, hi, rfl, rfl⟩
  rw [HashMap.getD_eq_getD_getElem?, (hids _ _).mpr hplace]
  exact ⟨n, hn, hmakes, hplace⟩

theorem row_of_getD (hb : Replayed rows edgeRows b) (hids : Renumbers rows ids) {x : Int} {n : Node}
    (hn : b.graph.node? (ids.getD x 0) = some n) : ∃ row ∈ rows, row.id = x ∧ row.Makes n := by
  rw [HashMap.getD_eq_getD_getElem?] at hn
  cases hx : ids[x]? with
  | none =>
      -- a number that no row has becomes 0, and 0 is no node
      rw [hx] at hn
      exact absurd (Graph.node?_bounds hn).1 (by decide)
  | some id =>
      rw [hx] at hn
      exact hb.restores.row_of_place ((hids x id).mp hx) hn

/-- One row of an edge, if it can be loaded, becomes the next edge. -/
theorem edge (hb : Replayed rows edgeRows b) (hids : Renumbers rows ids) {row : EdgeRow}
    (hrow : row.Loadable rows) (hnew : ∀ r ∈ edgeRows,
      (r.kind, r.source, r.target, r.line) ≠ (row.kind, row.source, row.target, row.line)) :
    ∃ b', (loadEdge ids row).run b = (.ok (), b') ∧ Replayed rows (edgeRows ++ [row]) b' := by
  obtain ⟨kind, rs, rt, ks, kt, hkind, hrs, hsource, hks, hrt, htarget, hkt, hjoin⟩ := hrow
  obtain ⟨s, hs, hmakes, hplace⟩ := hb.getD_of_row hids hrs
  obtain ⟨t, ht, hmakes', hplace'⟩ := hb.getD_of_row hids hrt
  rw [hsource] at hs hplace
  rw [htarget] at ht hplace'
  obtain rfl := nodeLabel_injective (hmakes.kind.trans hks)
  obtain rfl := nodeLabel_injective (hmakes'.kind.trans hkt)
  let e : Edge := ⟨b.graph.edges.size + 1, kind, ids.getD row.source 0, ids.getD row.target 0,
    row.line, row.createdAt, row.confidence⟩
  have he : row.Makes rows e := ⟨hkind.symm, hplace, hplace', rfl, rfl, rfl⟩
  have hseen : e.key ∉ b.graph.seen := hb.restores.not_mem_seen he hnew
  refine ⟨{ b with graph := insertEdge b.graph e }, ?_, hb.unfrozen,
    hb.restores.insertEdge he rfl hs ht hjoin hseen⟩
  apply Loading.lift_run_of_ok
  rw [ofText_eq_kind_iff.mpr hkind]
  exact Builder.addEdge_run_of_new hb.unfrozen hs ht hjoin hseen

/-- A row of an edge that loads can be loaded. -/
theorem loadable_of_loadEdge (hb : Replayed rows edgeRows b) (hids : Renumbers rows ids)
    {row : EdgeRow} {b' : Builder} (h : (loadEdge ids row).run b = (.ok (), b')) :
    row.Loadable rows := by
  have hrun := Loading.eq_ok_of_lift h
  obtain ⟨e, herror⟩ | ⟨kind, s, t, hlabel, hs, ht, hjoin, -⟩ :=
    Builder.addEdge_cases (.ofText row.kind) (ids.getD row.source 0) (ids.getD row.target 0)
      row.line (some row.createdAt) row.confidence b
  · rw [herror] at hrun
    cases hrun
  · obtain ⟨rs, hrs, hsource, hmakes⟩ := hb.row_of_getD hids hs
    obtain ⟨rt, hrt, htarget, hmakes'⟩ := hb.row_of_getD hids ht
    exact ⟨kind, rs, rt, s.kind, t.kind, ofText_eq_kind_iff.mp hlabel, hrs, hsource,
      hmakes.kind.symm, hrt, htarget, hmakes'.kind.symm, hjoin⟩

/-- All rows of edges: the loop goes through exactly if each row can be loaded. -/
theorem edges (rest : List EdgeRow) (hb : Replayed rows edgeRows b) (hids : Renumbers rows ids)
    (hfacts : ((edgeRows ++ rest).map fun r => (r.kind, r.source, r.target, r.line)).Nodup) :
    ((∃ b', (rest.forM (loadEdge ids)).run b = (.ok (), b')) ↔ ∀ row ∈ rest, row.Loadable rows) ∧
      ∀ b', (rest.forM (loadEdge ids)).run b = (.ok (), b') →
        Replayed rows (edgeRows ++ rest) b' := by
  induction rest generalizing edgeRows b with
  | nil =>
      rw [List.append_nil]
      refine ⟨⟨fun _ _ h => absurd h List.not_mem_nil, fun _ => ⟨b, rfl⟩⟩, ?_⟩
      rintro b' h
      cases h
      exact hb
  | cons row rest ih =>
      rw [List.forall_mem_cons, List.forM]
      -- either the row is appended and the loop goes on, or it stops here
      by_cases hrow : row.Loadable rows
      · obtain ⟨b₁, hrun, hb₁⟩ := hb.edge hids hrow (forall_ne_of_nodup_map hfacts)
        rw [run_bind_of_ok hrun, List.append_cons]
        rw [List.append_cons] at hfacts
        obtain ⟨hiff, hreplayed⟩ := ih hb₁ hfacts
        exact ⟨hiff.trans ⟨fun h => ⟨hrow, h⟩, fun h => h.2⟩, hreplayed⟩
      · have hnone : ∀ b', ((loadEdge ids row >>= fun _ => rest.forM (loadEdge ids)).run b ≠
            (.ok (), b')) := by
          intro b' h
          obtain ⟨_, _, hrun, -⟩ := run_bind_eq_ok h
          exact hrow (hb.loadable_of_loadEdge hids hrun)
        refine ⟨⟨?_, fun h => absurd h.1 hrow⟩, fun b' h => absurd h (hnone b')⟩
        rintro ⟨b', h⟩
        exact absurd h (hnone b')

end Replayed

theorem replayed_new (now : Timestamp) : Replayed [] [] (Builder.new now) := ⟨rfl, restores_nil⟩

/-! ## loading -/

/-- Rows that keep the constraints, whatever their order: the replay goes through exactly if each of
them can be loaded. -/
theorem replay_iff {rows : List NodeRow} {edgeRows : List EdgeRow}
    (hnumbers : (rows.map (·.id)).Nodup) (hkeys : (rows.map fun r => (r.kind, r.key)).Nodup)
    (hfacts : (edgeRows.map fun r => (r.kind, r.source, r.target, r.line)).Nodup)
    (now : Timestamp) :
    ((∃ b, (loadNodes ∅ rows >>= fun ids => edgeRows.forM (loadEdge ids)).run (Builder.new now) =
        (.ok (), b)) ↔
      (∀ row ∈ rows, row.Loadable) ∧ ∀ row ∈ edgeRows, row.Loadable rows) ∧
    ∀ b, (loadNodes ∅ rows >>= fun ids => edgeRows.forM (loadEdge ids)).run (Builder.new now) =
        (.ok (), b) → Replayed rows edgeRows b := by
  by_cases hrows : ∀ row ∈ rows, row.Loadable
  · obtain ⟨ids, b₁, hrun, hb₁, hids⟩ :=
      (replayed_new now).nodes renumbers_nil hrows hnumbers hkeys
    rw [run_bind_of_ok hrun]
    obtain ⟨hiff, hreplayed⟩ := hb₁.edges edgeRows hids hfacts
    exact ⟨hiff.trans ⟨fun h => ⟨hrows, h⟩, fun h => h.2⟩, hreplayed⟩
  · have hnone : ∀ b, (loadNodes ∅ rows >>= fun ids => edgeRows.forM (loadEdge ids)).run
        (Builder.new now) ≠ (.ok (), b) := by
      intro b h
      obtain ⟨_, _, hrun, -⟩ := run_bind_eq_ok h
      exact hrows (loadable_of_loadNodes hrun)
    refine ⟨⟨?_, fun h => absurd h.1 hrows⟩, fun b h => absurd h (hnone b)⟩
    rintro ⟨b, h⟩
    exact absurd h (hnone b)

theorem Database.load_eq_ok_iff {db : Database} (hopen : db.isOpen = true) {b : Builder} :
    db.load false = .ok b ↔
      ∃ b₁, (loadRows db.tables).run (Builder.new 0) = (.ok (), b₁) ∧ b₁.freeze = b := by
  rw [load, access_of_open hopen]
  change ((db.tables.load).mapError LoadError.toFailure = .ok b) ↔ _
  unfold Tables.load
  rcases (loadRows db.tables).run (Builder.new 0) with ⟨e | _, b₁⟩
  · simp only [Except.map, Except.mapError]
    constructor
    · rintro ⟨⟩
    · rintro ⟨_, ⟨⟩, -⟩
  · simp only [Except.map, Except.mapError, Except.ok.injEq]
    constructor
    · intro h
      exact ⟨b₁, rfl, h⟩
    · rintro ⟨_, ⟨⟩, h⟩
      exact h

/-- Rows are taken in order of their numbers. -/
theorem loadRows_eq {t : Tables} (ht : t.Keyed) :
    ∃ rows edgeRows, rows.Perm t.nodes ∧ Arranged NodeRow.id rows ∧ edgeRows.Perm t.edges ∧
      Arranged EdgeRow.id edgeRows ∧
      loadRows t = loadNodes ∅ rows >>= fun ids => edgeRows.forM (loadEdge ids) :=
  ⟨_, _, List.mergeSort_perm _ _, Arranged.mergeSort (fun _ _ => decide_eq_true_iff) ht.node_ids,
    List.mergeSort_perm _ _, Arranged.mergeSort (fun _ _ => decide_eq_true_iff) ht.edge_ids, rfl⟩

/-- **Loading any rows**: whatever an open database holds under its constraints, it loads exactly if
every row can be loaded.  The graph is then frozen and has, in order of the stored numbers, a node
for each row of nodes and an edge for each row of edges. -/
theorem Database.load_restores (db : Database) (hopen : db.isOpen = true) (ht : db.tables.Keyed) :
    ((∃ b, db.load false = .ok b) ↔
      (∀ row ∈ db.tables.nodes, row.Loadable) ∧
        ∀ row ∈ db.tables.edges, row.Loadable db.tables.nodes) ∧
    ∀ b, db.load false = .ok b → b.frozen = true ∧
      ∃ rows edgeRows, rows.Perm db.tables.nodes ∧ Arranged NodeRow.id rows ∧
        edgeRows.Perm db.tables.edges ∧ Arranged EdgeRow.id edgeRows ∧
        Restores rows edgeRows b.graph := by
  obtain ⟨rows, edgeRows, hrows, hsorted, hedges, hsorted', heq⟩ := loadRows_eq ht
  obtain ⟨hiff, hreplayed⟩ := replay_iff ((hrows.map _).nodup_iff.mpr ht.node_ids)
    ((hrows.map _).nodup_iff.mpr ht.node_keys) ((hedges.map _).nodup_iff.mpr ht.edge_facts) 0
  simp only [load_eq_ok_iff hopen, heq]
  refine ⟨?_, ?_⟩
  · simp only [hrows.mem_iff, hedges.mem_iff, EdgeRow.Loadable] at hiff
    refine Iff.trans ?_ hiff
    constructor
    · rintro ⟨_, b, hrun, -⟩
      exact ⟨b, hrun⟩
    · rintro ⟨b, hrun⟩
      exact ⟨_, b, hrun, rfl⟩
  · rintro _ ⟨b, hrun, rfl⟩
    exact ⟨rfl, rows, edgeRows, hrows, hsorted, hedges, hsorted', (hreplayed b hrun).restores⟩

/-- A method.  The column that only a field uses holds no list. -/
def writerRow : NodeRow :=
  ⟨9, "Method", "g()", "g", none, none, some "no list", some "g()", none, none⟩

/-- A field that the method writes. -/
def writtenRow : NodeRow := ⟨-3, "Field", "x", "x", none, none, none, none, none, none⟩

/-- The two rows and an edge from the method to some number. -/
def scattered (target : Int) : Database :=
  ⟨⟨[writerRow, writtenRow], [⟨-1, "WRITES", 9, target, 4, 7, 0.5⟩], none⟩, true⟩

/-- The field comes first, since its stored number is the least, and the edge follows the two to
their new numbers.  With an end that no row has, nothing is loaded. -/
theorem scattered_load :
    (scattered (-3)).tables.Keyed ∧ (scattered 8).tables.Keyed ∧
      (∃ b, (scattered (-3)).load false = .ok b ∧ b.frozen = true ∧
        (∃ n, b.graph.node? 1 = some n ∧ n.kind = .field ∧ n.key = "x") ∧
        (∃ n, b.graph.node? 2 = some n ∧ n.kind = .method ∧ n.key = "g()") ∧
        ∃ e ∈ b.graph.edges.toList, e.source = 2 ∧ e.target = 1 ∧ e.line = 4 ∧ e.createdAt = 7) ∧
      ¬∃ b, (scattered 8).load false = .ok b := by
  have hkeyed : ∀ target, (scattered target).tables.Keyed := fun target =>
    ⟨by simp [scattered, writerRow, writtenRow], by simp [scattered, writerRow, writtenRow],
      List.nodup_singleton _, List.nodup_singleton _⟩
  have hrows : ∀ row ∈ [writerRow, writtenRow], row.Loadable :=
    List.forall_mem_cons.mpr ⟨⟨.method, rfl, by decide, [], rfl⟩,
      List.forall_mem_singleton.mpr ⟨.field, rfl, by decide, [], rfl⟩⟩
  refine ⟨hkeyed _, hkeyed _, ?_, ?_⟩
  · obtain ⟨hiff, hgraph⟩ := Database.load_restores (scattered (-3)) rfl (hkeyed _)
    have hedge : EdgeRow.Loadable [writerRow, writtenRow] ⟨-1, "WRITES", 9, -3, 4, 7, 0.5⟩ :=
      ⟨.writes, writerRow, writtenRow, .method, .field, rfl, by simp, rfl, rfl, by simp, rfl, rfl,
        rfl⟩
    obtain ⟨b, hload⟩ := hiff.mpr ⟨hrows, List.forall_mem_singleton.mpr hedge⟩
    obtain ⟨hfrozen, rows, edgeRows, hperm, hsorted, hedges, -, hb⟩ := hgraph b hload
    obtain rfl := List.perm_singleton.mp hedges
    obtain rfl : rows = [writtenRow, writerRow] :=
      hsorted.ext (List.pairwise_pair.mpr (by decide)) (hperm.trans (.swap _ _ _)).subset
        (hperm.trans (.swap _ _ _)).symm.subset
    have hplace : ∀ {x id}, Place [writtenRow, writerRow] x id → id = if x = 9 then 2 else 1 := by
      rintro x id ⟨i, row, hrow, rfl, rfl⟩
      match i, hrow with
      | 0, rfl => rfl
      | 1, rfl => rfl
    obtain ⟨n, hn, hmakes⟩ := hb.node_of_row (i := 0) rfl
    obtain ⟨m, hm, hmakes'⟩ := hb.node_of_row (i := 1) rfl
    obtain ⟨e, he, hedge⟩ := exists_getElem?_of_forall₂ hb.edges (i := 0) rfl
    refine ⟨b, hload, hfrozen, ⟨n, hn, nodeLabel_injective hmakes.kind, hmakes.key⟩,
      ⟨m, hm, nodeLabel_injective hmakes'.kind, hmakes'.key⟩, e, List.mem_of_getElem? he, ?_, ?_,
      hedge.line, hedge.createdAt⟩
    · exact hplace hedge.source
    · exact hplace hedge.target
  · rw [(Database.load_restores (scattered 8) rfl (hkeyed _)).1]
    rintro ⟨-, hedge⟩
    obtain ⟨_, _, t, _, _, -, -, -, -, ht, hid, -⟩ := List.forall_mem_singleton.mp hedge
    rcases List.mem_pair.mp ht with rfl | rfl
    · cases hid
    · cases hid

end Ripple.Snapshot
