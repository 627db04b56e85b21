import Ripple.Proofs.Graph.Closure
import Ripple.Proofs.Snapshot.RoundTrip
import Mathlib.Data.Set.Card

/-!
# Ripple.Proofs.Snapshot.Callers

The callers that stored rows count, and those that a search of the graph finds.

Counting starts at a method and takes one layer of callers after the other, up to a limit.
`mem_reach` says what is then reached: the ends of walks that are not longer.  Other views of this
are

* `CallerRow`, the pairs of a method and a depth that a recursive query gathers, where a method
  comes once for each length of a walk (`callerRow_iff`);
* `Graph.CallsAway`, the length of a shortest walk;
* the closure of the graph, which knows no limit.

`Database.totalCallers_saved` compares the three.
-/

namespace Ripple

open Std

/-- The shortest way over calls from one method to another takes `k` calls. -/
def Graph.CallsAway (g : Graph) (caller callee : NodeId) (k : Nat) : Prop :=
  IsLeast {n | Walk (g.Linked .calls) n caller callee} k

theorem Walk.exists_isLeast {α : Type} {r : α → α → Prop} {a b : α} {n : Nat} (h : Walk r n a b) :
    ∃ k, k ≤ n ∧ IsLeast {m | Walk r m a b} k :=
  ⟨_, Nat.sInf_le h, Nat.sInf_mem ⟨n, h⟩, fun _ hm => Nat.sInf_le hm⟩

/-- A walk between different nodes takes a step. -/
theorem Walk.pos {α : Type} {r : α → α → Prop} {a b : α} {n : Nat} (h : Walk r n a b)
    (hab : a ≠ b) : 1 ≤ n := by
  cases h with
  | nil => exact absurd rfl hab
  | snoc => omega

/-- Between different nodes, a walk within a limit is as good as a shortest one. -/
theorem exists_walk_le_iff {α : Type} {r : α → α → Prop} {a b : α} (hab : a ≠ b) (limit : Nat) :
    (∃ n, 1 ≤ n ∧ n ≤ limit ∧ Walk r n a b) ↔
      ∃ k, IsLeast {n | Walk r n a b} k ∧ 1 ≤ k ∧ k ≤ limit := by
  constructor
  · rintro ⟨n, -, hle, hwalk⟩
    obtain ⟨k, hk, hleast⟩ := hwalk.exists_isLeast
    exact ⟨k, hleast, Walk.pos hleast.1 hab, hk.trans hle⟩
  · rintro ⟨k, hleast, hpos, hle⟩
    exact ⟨k, hpos, hle, hleast.1⟩

namespace Snapshot

/-! ## edges as rows -/

/-- A row of an edge of this kind leads from one number to another. -/
def Tables.Links (t : Tables) (kind : EdgeKind) (source target : Int) : Prop :=
  ∃ e ∈ t.edges, e.kind = kind.label ∧ e.source = source ∧ e.target = target

theorem mem_foldl_alter {es : List EdgeRow} {m : HashMap Int (List Int)} {x y : Int} :
    x ∈ (es.foldl (fun m e => m.alter e.target fun xs => some (e.source :: xs.getD [])) m).getD y []
      ↔ x ∈ m.getD y [] ∨ ∃ e ∈ es, e.source = x ∧ e.target = y := by
  induction es generalizing m with
  | nil => simp
  | cons e es ih =>
      rw [List.foldl_cons, ih, HashMap.getD_alter]
      by_cases hy : e.target = y
      · simp only [hy, BEq.rfl, if_true, Option.getD_some, ← HashMap.getD_eq_getD_getElem?,
          List.mem_cons, exists_eq_or_imp, and_true]
        rw [eq_comm, or_assoc, or_left_comm]
      · simp [hy]

/-- The sources of a number are those from which a row leads to it. -/
theorem mem_sourcesByTarget {t : Tables} {kind : EdgeKind} {x y : Int} :
    x ∈ (sourcesByTarget t kind).getD y [] ↔ t.Links kind x y := by
  rw [sourcesByTarget, mem_foldl_alter]
  simp [Tables.Links, and_assoc]

theorem links_ofGraph {g : Graph} {now : Timestamp} {kind : EdgeKind} {a b : NodeId} :
    (Tables.ofGraph g now).Links kind a b ↔ g.Linked kind a b := by
  constructor
  · rintro ⟨row, hrow, hkind, rfl, rfl⟩
    obtain ⟨e, he, rfl⟩ := List.mem_map.mp hrow
    obtain rfl := edgeLabel_injective hkind
    exact ⟨e.line, Graph.linkedAt_of_mem (Array.mem_toList_iff.mp he)⟩
  · rintro ⟨line, e, he, rfl, rfl, rfl, -⟩
    exact ⟨.ofEdge e, List.mem_map_of_mem (Array.mem_toList_iff.mpr he), rfl, rfl, rfl⟩

/-! ## layers -/

theorem newcomers_eq (seen : HashSet Int) (xs : List Int) :
    newcomers seen xs =
      ((Closure.newcomers seen xs).foldl HashSet.insert seen, Closure.newcomers seen xs) := by
  induction xs generalizing seen with
  | nil => rfl
  | cons x xs ih =>
      rw [newcomers, Closure.newcomers]
      split
      · exact ih seen
      · rw [ih]
        rfl

theorem reach_nil (next : Int → List Int) (depth : Nat) (seen : HashSet Int) :
    reach next depth seen [] = seen := by
  cases depth with
  | zero => rfl
  | succ depth => rfl

/-- The next layer; that it may be empty makes no difference. -/
theorem reach_succ (next : Int → List Int) (depth : Nat) (seen : HashSet Int)
    (frontier : List Int) : reach next (depth + 1) seen frontier =
      reach next depth (newcomers seen (frontier.flatMap next)).1
        (newcomers seen (frontier.flatMap next)).2 := by
  rw [reach]
  dsimp only
  split
  · next hempty => rw [List.isEmpty_iff.mp hempty, reach_nil]
  · rfl

section
variable {r : Int → Int → Prop} {seen : HashSet Int} {frontier : List Int}

/-- A walk from what was seen stays there, or leaves it over the frontier. -/
theorem mem_or_reachedIn_of_walk (hclosed : ∀ a ∈ seen, a ∉ frontier → ∀ b, r a b → b ∈ seen)
    {a x : Int} {m : Nat} (ha : a ∈ seen) (h : Walk r m a x) :
    x ∈ seen ∨ ∃ n, 1 ≤ n ∧ n ≤ m ∧ ReachedIn r frontier n x := by
  induction h with
  | nil => exact .inl ha
  | @snoc m a b c _ hstep ih =>
      rcases ih ha with hseen | ⟨n, hpos, hle, hreached⟩
      · by_cases hb : b ∈ frontier
        · exact .inr ⟨1, Nat.le_refl 1, by omega, (reachedIn_zero hb).step hstep⟩
        · exact .inl (hclosed b hseen hb c hstep)
      · exact .inr ⟨n + 1, by omega, by omega, hreached.step hstep⟩

/-- What is reached are the ends of walks from the frontier that are not longer than the depth.  The
frontier is where what was seen is not closed. -/
theorem mem_reach {next : Int → List Int} (hnext : ∀ a b, b ∈ next a ↔ r a b)
    (hclosed : ∀ a ∈ seen, a ∉ frontier → ∀ b, r a b → b ∈ seen) (depth : Nat) (x : Int) :
    x ∈ reach next depth seen frontier ↔
      x ∈ seen ∨ ∃ n, 1 ≤ n ∧ n ≤ depth ∧ ReachedIn r frontier n x := by
  induction depth generalizing seen frontier with
  | zero =>
      rw [reach]
      refine ⟨.inl, ?_⟩
      rintro (hseen | ⟨n, hpos, hle, -⟩)
      · exact hseen
      · omega
  | succ depth ih =>
      -- the next layer, without and with what was seen before
      obtain ⟨fresh, hfresh⟩ : ∃ fresh, Closure.newcomers seen (frontier.flatMap next) = fresh :=
        ⟨_, rfl⟩
      obtain ⟨all, hall⟩ : ∃ all, fresh.foldl HashSet.insert seen = all := ⟨_, rfl⟩
      have hmem : ∀ y, y ∈ fresh ↔ (∃ a ∈ frontier, r a y) ∧ y ∉ seen := by
        simp [← hfresh, Closure.mem_newcomers, hnext]
      have hmem' : ∀ y, y ∈ all ↔ y ∈ seen ∨ ∃ a ∈ frontier, r a y := by
        intro y
        rw [← hall, Closure.mem_foldl_insert, hmem]
        tauto
      -- the steps of the old frontier end in it, so only the new one is left open
      have hclosed' : ∀ a ∈ all, a ∉ fresh → ∀ b, r a b → b ∈ all := by
        intro a ha hold b hstep
        rw [hmem'] at ha ⊢
        rw [hmem] at hold
        by_cases hfront : a ∈ frontier
        · exact .inr ⟨a, hfront, hstep⟩
        · have hseen : a ∈ seen := by
            by_contra hnew
            exact hold ⟨ha.resolve_left hnew, hnew⟩
          exact .inl (hclosed a hseen hfront b hstep)
      rw [reach_succ, newcomers_eq, hfresh, hall, ih hclosed']
      constructor
      · rintro (hx | ⟨n, hpos, hle, s, hs, hwalk⟩)
        · rcases (hmem' x).mp hx with hseen | ⟨a, ha, hstep⟩
          · exact .inl hseen
          · exact .inr ⟨1, Nat.le_refl 1, by omega, (reachedIn_zero ha).step hstep⟩
        · obtain ⟨⟨a, ha, hstep⟩, -⟩ := (hmem s).mp hs
          exact .inr ⟨n + 1, by omega, by omega, a, ha, hwalk.cons hstep⟩
      · rintro (hseen | ⟨n, hpos, hle, a, ha, hwalk⟩)
        · exact .inl ((hmem' x).mpr (.inl hseen))
        · -- after the first step the walk is among what was then seen
          obtain ⟨m, rfl⟩ : ∃ m, n = m + 1 := ⟨n - 1, by omega⟩
          obtain ⟨b, hstep, hrest⟩ := hwalk.exists_head
          have hb : b ∈ all := (hmem' b).mpr (.inr ⟨a, ha, hstep⟩)
          refine (mem_or_reachedIn_of_walk hclosed' hb hrest).imp_right ?_
          rintro ⟨k, hk, hkm, hreached⟩
          exact ⟨k, hk, by omega, hreached⟩

end

/-! ## counting -/

/-- The rows that a recursive query gathers for a method: its callers at depth 1 and, while the
depth is below the limit, the callers of a gathered method one deeper.  A row is there once, but a
method may come at several depths. -/
inductive CallerRow (t : Tables) (id : Int) : Int → Nat → Prop where
  | direct (h : t.Links .calls x id) : CallerRow t id x 1
  | further (h : CallerRow t id y depth) (hdepth : depth < depthLimit)
    (hlink : t.Links .calls x y) : CallerRow t id x (depth + 1)

/-- A method is gathered at the lengths of its walks. -/
theorem callerRow_iff {t : Tables} {id x : Int} {depth : Nat} :
    CallerRow t id x depth ↔ 1 ≤ depth ∧ depth ≤ depthLimit ∧ Walk (t.Links .calls) depth x id := by
  constructor
  · intro h
    induction h with
    | direct hlink => exact ⟨Nat.le_refl 1, by decide, (Walk.nil _).snoc hlink⟩
    | further _ hdepth hlink ih => exact ⟨by omega, hdepth, ih.2.2.cons hlink⟩
  · rintro ⟨hpos, hle, hwalk⟩
    induction depth generalizing x with
    | zero => omega
    | succ depth ih =>
        obtain ⟨y, hlink, hrest⟩ := hwalk.exists_head
        rcases Nat.eq_zero_or_pos depth with rfl | hdepth
        · cases hrest
          exact .direct hlink
        · exact .further (ih hdepth (by omega) hrest) hle hlink

/-- The callers that are counted, each once. -/
theorem exists_callers (t : Tables) (id : Int) :
    ∃ l : List Int, l.Nodup ∧ totalCallers (sourcesByTarget t .calls) id = l.length ∧
      ∀ x, x ∈ l ↔ x ≠ id ∧ ∃ n, 1 ≤ n ∧ n ≤ depthLimit ∧ Walk (t.Links .calls) n x id := by
  have hreach : ∀ x, x ∈ reach ((sourcesByTarget t .calls).getD · []) depthLimit ∅ [id] ↔
      x ∈ (∅ : HashSet Int) ∨
        ∃ n, 1 ≤ n ∧ n ≤ depthLimit ∧ ReachedIn (fun a b => t.Links .calls b a) [id] n x :=
    mem_reach (fun _ _ => mem_sourcesByTarget) (by simp) depthLimit
  refine ⟨_, HashSet.distinct_toList.imp fun h => by simpa using h, HashSet.length_toList.symm, ?_⟩
  intro x
  rw [HashSet.mem_toList, HashSet.mem_erase, hreach]
  constructor
  · rintro ⟨hne, hseen | ⟨n, hpos, hle, s, hs, hwalk⟩⟩
    · exact absurd hseen HashSet.not_mem_empty
    · obtain rfl := List.mem_singleton.mp hs
      exact ⟨fun heq => by simp [heq] at hne, n, hpos, hle, hwalk.reverse fun _ _ h => h⟩
  · rintro ⟨hne, n, hpos, hle, hwalk⟩
    exact ⟨by simpa using hne.symm, .inr ⟨n, hpos, hle, id, List.mem_singleton_self id,
      hwalk.reverse fun _ _ h => h⟩⟩

theorem ncard_of_nodup {α : Type} {l : List α} (hl : l.Nodup) {s : Set α}
    (hs : ∀ x, x ∈ l ↔ x ∈ s) : l.length = s.ncard := by
  classical
  have hset : s = l.toFinset := by
    ext x
    simp [hs]
  rw [hset, Set.ncard_coe_finset, List.toFinset_card_of_nodup hl]

/-- Counting distinct methods among the rows of the query. -/
theorem totalCallers_eq_ncard (t : Tables) (id : Int) :
    totalCallers (sourcesByTarget t .calls) id =
      {x | x ≠ id ∧ ∃ depth, CallerRow t id x depth}.ncard := by
  obtain ⟨l, hnodup, hcount, hmem⟩ := exists_callers t id
  rw [hcount]
  refine ncard_of_nodup hnodup fun x => ?_
  simp only [hmem, callerRow_iff, Set.mem_ofPred_eq]

end Snapshot

/-! ## the callers of a graph -/

namespace Graph.WellFormed

variable {g : Graph}

/-- Nodes are counted by their numbers. -/
theorem ncard_nodes (hg : g.WellFormed) {l : List NodeId} (hl : l.Nodup)
    (hnode : ∀ x ∈ l, ∃ n, g.node? x = some n) {s : Set Node}
    (hs : ∀ n, n ∈ s ↔ n ∈ g.nodes ∧ n.id ∈ l) : l.length = s.ncard := by
  have hinj : s.InjOn Node.id := by
    intro m hm n hn hid
    have hm' := hg.node?_iff.mpr ⟨((hs m).mp hm).1, hid⟩
    have hn' := hg.node?_iff.mpr ⟨((hs n).mp hn).1, rfl⟩
    exact Option.some.inj (hm'.symm.trans hn')
  rw [← hinj.ncard_image]
  refine Snapshot.ncard_of_nodup hl fun x => ?_
  constructor
  · intro hx
    obtain ⟨n, hn⟩ := hnode x hx
    obtain ⟨hmem, rfl⟩ := hg.node?_iff.mp hn
    exact ⟨n, (hs n).mpr ⟨hmem, hx⟩, rfl⟩
  · rintro ⟨n, hn, rfl⟩
    exact ((hs n).mp hn).2

/-- Who calls another node, however indirectly, is a node. -/
theorem exists_node_of_walk (hg : g.WellFormed) {x id : NodeId} {n : Nat}
    (h : Walk (g.Linked .calls) n x id) (hne : x ≠ id) : ∃ m, g.node? x = some m := by
  obtain ⟨n, rfl⟩ : ∃ m, n = m + 1 := ⟨n - 1, by have := h.pos hne; omega⟩
  obtain ⟨y, hstep, -⟩ := h.exists_head
  obtain ⟨m, hm, -⟩ := (hg.isKind_of_calls hstep).1
  exact ⟨m, hm⟩

end Graph.WellFormed

/-- The closure lists who is some calls away, however many. -/
theorem Closure.Exact.mem_callers_iff {g : Graph} {c : Closure} {id : NodeId}
    (hc : c.Exact (g.Adjacent .calls .backward) [id]) (x : NodeId) :
    x ∈ c.nodes ↔ x ≠ id ∧ ∃ k, g.CallsAway x id k := by
  rw [hc.mem_iff]
  constructor
  · rintro ⟨hout, s, hs, htrans⟩
    obtain rfl := List.mem_singleton.mp hs
    obtain ⟨n, hwalk⟩ := exists_walk_of_reflTransGen htrans.to_reflTransGen
    obtain ⟨k, -, hleast⟩ := Walk.exists_isLeast (hwalk.reverse fun _ _ h => h)
    exact ⟨fun heq => hout (List.mem_singleton.mpr heq), k, hleast⟩
  · rintro ⟨hne, k, hwalk, -⟩
    have hout : x ∉ [id] := fun hx => hne (List.mem_singleton.mp hx)
    have hreached : ReachedIn (g.Adjacent .calls .backward) [id] k x :=
      ⟨id, List.mem_singleton_self id, Walk.reverse (fun _ _ h => h) hwalk⟩
    exact ⟨hout, hreached.transGen hout⟩

/-- Of the callers in the closure, those within a limit are all exactly if none is beyond it. -/
theorem Closure.Exact.length_eq_iff {g : Graph} (hg : g.WellFormed) {c : Closure} {id : NodeId}
    (hc : c.Exact (g.Adjacent .calls .backward) [id]) {l : List NodeId} (hl : l.Nodup) {limit : Nat}
    (hnear : ∀ x, x ∈ l ↔ x ≠ id ∧ ∃ k, g.CallsAway x id k ∧ 1 ≤ k ∧ k ≤ limit) :
    l.length ≤ c.nodes.length ∧ (l.length = c.nodes.length ↔
      ∀ m ∈ g.nodes, m.id ≠ id → ∀ k, g.CallsAway m.id id k → k ≤ limit) := by
  have hsub : l ⊆ c.nodes := by
    intro x hx
    obtain ⟨hne, k, hk, -⟩ := (hnear x).mp hx
    exact (hc.mem_callers_iff x).mpr ⟨hne, k, hk⟩
  refine ⟨(hl.subperm hsub).length_le, ?_⟩
  rw [length_eq_iff_of_subset hl hc.nodup hsub]
  constructor
  · intro hall m _ hne k hk
    have hmem : m.id ∈ l := hall ((hc.mem_callers_iff m.id).mpr ⟨hne, k, hk⟩)
    obtain ⟨-, k', hk', -, hle⟩ := (hnear m.id).mp hmem
    exact hk.unique hk' ▸ hle
  · intro hwithin x hx
    obtain ⟨hne, k, hk⟩ := (hc.mem_callers_iff x).mp hx
    obtain ⟨m, hm⟩ := hg.exists_node_of_walk hk.1 hne
    obtain ⟨hmem, rfl⟩ := hg.node?_iff.mp hm
    exact (hnear _).mpr ⟨hne, k, hk, Walk.pos hk.1 hne, hwithin m hmem hne k hk⟩

/-- The callers that are counted for a saved graph are those within the limit. -/
theorem Snapshot.exists_callers_ofGraph (g : Graph) (now : Timestamp) (id : NodeId) :
    ∃ l : List NodeId, l.Nodup ∧
      totalCallers (sourcesByTarget (.ofGraph g now) .calls) id = l.length ∧
      ∀ x, x ∈ l ↔ x ≠ id ∧ ∃ k, g.CallsAway x id k ∧ 1 ≤ k ∧ k ≤ depthLimit := by
  obtain ⟨l, hnodup, hcount, hmem⟩ := exists_callers (.ofGraph g now) id
  have hlinks : (Tables.ofGraph g now).Links .calls = g.Linked .calls := by
    ext a b
    exact links_ofGraph
  refine ⟨l, hnodup, hcount, fun x => ?_⟩
  rw [hmem, hlinks]
  exact and_congr_right fun hne => exists_walk_le_iff hne depthLimit

/-- **Counting callers**: for every graph that a builder holds and that was saved, the count for a
number is that of the distinct methods in the rows of the recursive query, and of the nodes other
than it from which a shortest way over calls takes 1 to 50 of them.  It is at most the size of the
closure, and equals it exactly if no node of the graph is farther away. -/
theorem Snapshot.Database.totalCallers_saved {g : Graph} (hg : g.Built) (db : Database)
    (hopen : db.isOpen = true) (now : Timestamp) (id : NodeId) :
    ∃ db' n c visits, db.save false g now = .ok db' ∧ db'.totalCallers id = .ok n ∧
      n = {x | x ≠ id ∧ ∃ depth, CallerRow db'.tables id x depth}.ncard ∧
      n = {m : Node | m ∈ g.nodes ∧ m.id ≠ id ∧
        ∃ k, g.CallsAway m.id id k ∧ 1 ≤ k ∧ k ≤ 50}.ncard ∧
      g.closure .backward .calls [id] 0 (fun _ => false) = some (c, visits) ∧
      n ≤ c.nodes.length ∧
      (n = c.nodes.length ↔
        ∀ m ∈ g.nodes, m.id ≠ id → ∀ k, g.CallsAway m.id id k → k ≤ 50) := by
  have hwf := hg.wellFormed
  obtain ⟨l, hnodup, hcount, hnear⟩ := exists_callers_ofGraph g now id
  obtain ⟨c, visits, hc, -, hsearch⟩ := hwf.closure_exact .backward .calls [id]
  obtain ⟨hle, hiff⟩ := hc.length_eq_iff hwf hnodup hnear
  have hstored : access { db with tables := .ofGraph g now } false = .ok (.ofGraph g now) :=
    access_of_open hopen
  refine ⟨{ db with tables := .ofGraph g now }, l.length, c, visits, save_of_open hopen g now, ?_,
    ?_, ?_, hsearch _ (Nat.le_refl _), hle, hiff⟩
  · rw [totalCallers, hstored, ← hcount]
    rfl
  · rw [← hcount]
    exact totalCallers_eq_ncard _ id
  · refine hwf.ncard_nodes hnodup ?_ fun m => and_congr_right fun _ => (hnear m.id).symm
    intro x hx
    obtain ⟨hne, k, ⟨hwalk, -⟩, -⟩ := (hnear x).mp hx
    exact hwf.exists_node_of_walk hwalk hne

/-- A new database counts the one caller of the overload, which it calls in turn. -/
theorem Snapshot.getters_totalCallers :
    Graph.getters.Built ∧ Database.new.isOpen = true ∧
      ∃ db, Database.new.save false Graph.getters 0 = .ok db ∧ db.totalCallers 5 = .ok 1 := by
  obtain ⟨db, n, c, visits, hsave, hcount, -, -, hclosure, -, hiff⟩ :=
    Database.totalCallers_saved Graph.getters_built .new rfl 0 5
  obtain ⟨c', visits', hc, -, hsearch⟩ :=
    Graph.getters_built.wellFormed.closure_exact .backward .calls [5]
  obtain ⟨rfl, rfl⟩ : c' = c ∧ visits' = visits := by
    have hsame := (hsearch _ (Nat.le_refl _)).symm.trans hclosure
    simpa using hsame
  have hnodes := Graph.getters_callers hc (by decide) (by decide)
  have hn : n = c'.nodes.length := by
    rw [hiff]
    intro m _ hne k hk
    have hmem := (hc.mem_callers_iff m.id).mpr ⟨hne, k, hk⟩
    rw [hnodes, List.mem_singleton] at hmem
    obtain ⟨-, -, -, -, -, hcalls⟩ := Graph.getters_linked
    have hle : k ≤ 1 := hk.2 (hmem ▸ (Walk.nil _).snoc hcalls)
    omega
  rw [hn, hnodes] at hcount
  exact ⟨Graph.getters_built, rfl, db, hsave, hcount⟩

end Ripple
