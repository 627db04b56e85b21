import Ripple.Graph.Closure
import Ripple.Proofs.Graph.Lookup
import Mathlib.Data.List.Nodup
import Mathlib.Data.List.Dedup
import Mathlib.Order.Lattice.Nat

/-!
# Ripple.Proofs.Graph.Closure

Breadth-first search finds what can be reached, once, and the near before the far.

The order in which a search takes nodes up is one list: first the seeds, then the nodes found.  At
every moment it is cut in two, the nodes already visited and the queue,

```
done ++ queue = newcomers ∅ seeds ++ found.reverse
```

and `Search.Sound` says of this list that it has no repetitions, that it is sorted by distance, that
it holds what one step from `done` reaches, and that no distance in it is more than one above a
distance in the queue.  `Sound.visit` keeps this over one visit, `run_of_sound` over a whole search,
and an empty queue turns it into `search_exact`.
-/

namespace Ripple

open Std

/-! ## walks and distances -/

/-- `Walk r n a b`: `n` steps of `r` lead from `a` to `b`. -/
inductive Walk (r : α → α → Prop) : Nat → α → α → Prop where
  | nil (a : α) : Walk r 0 a a
  | snoc (h : Walk r n a b) (hstep : r b c) : Walk r (n + 1) a c

/-- A walk of length `n` leads from one of the seeds to `x`. -/
def ReachedIn (r : α → α → Prop) (seeds : List α) (n : Nat) (x : α) : Prop :=
  ∃ s ∈ seeds, Walk r n s x

/-- The length of a shortest walk from one of the seeds. -/
noncomputable def distance (r : α → α → Prop) (seeds : List α) (x : α) : Nat :=
  sInf {n | ReachedIn r seeds n x}

section
variable {r : α → α → Prop} {seeds : List α}

theorem Walk.reflTransGen (h : Walk r n a b) : Relation.ReflTransGen r a b := by
  induction h with
  | nil => exact .refl
  | snoc _ hstep ih => exact ih.tail hstep

theorem exists_walk_of_reflTransGen (h : Relation.ReflTransGen r a b) : ∃ n, Walk r n a b := by
  induction h with
  | refl => exact ⟨0, .nil a⟩
  | tail _ hstep ih =>
      obtain ⟨n, hwalk⟩ := ih
      exact ⟨n + 1, hwalk.snoc hstep⟩

/-- A walk may also be extended at its start. -/
theorem Walk.cons (hstep : r a b) (h : Walk r n b c) : Walk r (n + 1) a c := by
  induction h with
  | nil => exact (Walk.nil a).snoc hstep
  | snoc _ hlast ih => exact (ih hstep).snoc hlast

theorem Walk.exists_head (h : Walk r (n + 1) a c) : ∃ b, r a b ∧ Walk r n b c := by
  induction n generalizing c with
  | zero =>
      cases h with
      | snoc h hstep =>
          cases h
          exact ⟨c, hstep, .nil c⟩
  | succ n ih =>
      cases h with
      | snoc h hstep =>
          obtain ⟨b, hhead, htail⟩ := ih h
          exact ⟨b, hhead, htail.snoc hstep⟩

/-- A walk can be taken backwards. -/
theorem Walk.reverse {s : α → α → Prop} (hs : ∀ a b, r a b → s b a) (h : Walk r n a b) :
    Walk s n b a := by
  induction h with
  | nil => exact .nil _
  | snoc _ hstep ih => exact .cons (hs _ _ hstep) ih

theorem ReachedIn.distance_le (h : ReachedIn r seeds n x) : distance r seeds x ≤ n :=
  Nat.sInf_le h

/-- The distance of what is reached is the length of a walk. -/
theorem ReachedIn.reachedIn_distance (h : ReachedIn r seeds n x) :
    ReachedIn r seeds (distance r seeds x) x :=
  Nat.sInf_mem (s := {n | ReachedIn r seeds n x}) ⟨n, h⟩

theorem ReachedIn.step (h : ReachedIn r seeds n x) (hstep : r x y) :
    ReachedIn r seeds (n + 1) y := by
  obtain ⟨s, hs, hwalk⟩ := h
  exact ⟨s, hs, hwalk.snoc hstep⟩

theorem reachedIn_zero (h : x ∈ seeds) : ReachedIn r seeds 0 x :=
  ⟨x, h, .nil x⟩

theorem distance_of_mem (h : x ∈ seeds) : distance r seeds x = 0 :=
  Nat.le_zero.mp (reachedIn_zero h).distance_le

/-- A walk that ends outside of the seeds has a last step. -/
theorem ReachedIn.transGen (h : ReachedIn r seeds n x) (hx : x ∉ seeds) :
    ∃ s ∈ seeds, Relation.TransGen r s x := by
  obtain ⟨s, hs, hwalk⟩ := h
  cases Relation.reflTransGen_iff_eq_or_transGen.mp hwalk.reflTransGen with
  | inl heq => exact absurd (heq ▸ hs) hx
  | inr htrans => exact ⟨s, hs, htrans⟩

end

namespace Closure

/-! ## discovery -/

/-- The nodes of a list that are not visited, each at its first occurrence. -/
def newcomers (visited : HashSet NodeId) : List NodeId → List NodeId
  | [] => []
  | n :: ns =>
    if visited.contains n then newcomers visited ns else n :: newcomers (visited.insert n) ns

theorem mem_newcomers {visited : HashSet NodeId} {ns : List NodeId} {x : NodeId} :
    x ∈ newcomers visited ns ↔ x ∈ ns ∧ x ∉ visited := by
  induction ns generalizing visited with
  | nil => simp [newcomers]
  | cons n ns ih =>
      rw [newcomers]
      split
      · next hn =>
          rw [ih, List.mem_cons]
          have hn' : n ∈ visited := HashSet.mem_iff_contains.mpr hn
          grind
      · next hn =>
          rw [List.mem_cons, ih, HashSet.mem_insert, beq_iff_eq, List.mem_cons]
          have hn' : n ∉ visited := fun h => hn (HashSet.mem_iff_contains.mp h)
          grind

theorem nodup_newcomers (visited : HashSet NodeId) (ns : List NodeId) :
    (newcomers visited ns).Nodup := by
  induction ns generalizing visited with
  | nil => exact List.nodup_nil
  | cons n ns ih =>
      rw [newcomers]
      split
      · exact ih visited
      · refine List.nodup_cons.mpr ⟨?_, ih _⟩
        simp [mem_newcomers]

theorem mem_foldl_insert {visited : HashSet NodeId} {ns : List NodeId} {x : NodeId} :
    x ∈ ns.foldl HashSet.insert visited ↔ x ∈ visited ∨ x ∈ ns := by
  induction ns generalizing visited with
  | nil => simp
  | cons n ns ih =>
      rw [List.foldl_cons, ih, HashSet.mem_insert, beq_iff_eq, List.mem_cons]
      grind

/-- Without a cap, a visit takes up all newcomers. -/
theorem discover_zero (ns fresh : List NodeId) (s : Search) :
    discover 0 ns fresh s =
      { s with
        visited := (newcomers s.visited ns).foldl HashSet.insert s.visited
        found := (newcomers s.visited ns).reverse ++ s.found
        members := (newcomers s.visited ns).foldl HashSet.insert s.members
        size := s.size + (newcomers s.visited ns).length
        queue := s.queue ++ (fresh.reverse ++ newcomers s.visited ns) } := by
  induction ns generalizing fresh s with
  | nil => simp [discover, newcomers]
  | cons n ns ih =>
      rw [discover, newcomers]
      split
      · exact ih fresh s
      · simp only [Nat.lt_irrefl, false_and, if_false]
        rw [ih]
        simp [Nat.add_assoc, Nat.add_comm]

theorem start_eq (seeds : List NodeId) (s : Search) :
    start seeds s =
      { s with
        visited := (newcomers s.visited seeds).foldl HashSet.insert s.visited
        queue := s.queue.reverse ++ newcomers s.visited seeds } := by
  induction seeds generalizing s with
  | nil => simp [start, newcomers]
  | cons n ns ih =>
      rw [start, newcomers]
      split
      · exact ih s
      · rw [ih]
        simp

theorem initial_eq (seeds : List NodeId) :
    initial seeds =
      ⟨(newcomers ∅ seeds).foldl HashSet.insert ∅, [], ∅, 0, newcomers ∅ seeds, 0, false⟩ := by
  rw [initial, start_eq]
  simp

/-! ## looking up what was found -/

/-- The nodes to look up are the ones that were found. -/
def Search.Indexed (s : Search) : Prop := ∀ x, x ∈ s.members ↔ x ∈ s.found

theorem indexed_initial (seeds : List NodeId) : (initial seeds).Indexed := by
  intro x
  simp [initial_eq]

/-- A visit enters what it finds in both places, also the one that the cap stops. -/
theorem Search.Indexed.discover {s : Search} (h : s.Indexed) (cap : Nat) (ns fresh : List NodeId) :
    (discover cap ns fresh s).Indexed := by
  fun_induction Closure.discover cap ns fresh s with
  | case1 fresh s => exact h
  | case2 fresh s n ns hn ih => exact ih h
  | case3 fresh s n ns hn hfull => exact h
  | case4 fresh s n ns hn hopen ih =>
      refine ih fun x => ?_
      rw [HashSet.mem_insert, beq_iff_eq, List.mem_cons, h x, eq_comm]

theorem Search.Indexed.run {next : NodeId → List NodeId} {cap fuel : Nat} {poll : Nat → Bool}
    {s t : Search} (h : s.Indexed) (hrun : run next cap poll fuel s = some t) : t.Indexed := by
  induction fuel generalizing s with
  | zero => exact Option.some.inj hrun ▸ h
  | succ fuel ih =>
      rw [Closure.run] at hrun
      split at hrun
      · exact Option.some.inj hrun ▸ h
      · next current waiting hqueue =>
          simp only at hrun
          have hvisit := Search.Indexed.discover
            (s := { s with queue := waiting, visits := s.visits + 1 }) h cap (next current) []
          split at hrun
          · cases hrun
          · split at hrun
            · exact Option.some.inj hrun ▸ hvisit
            · exact ih hvisit hrun

/-- **Looking up** a node tells whether it is listed, whatever the cap and whoever cancels. -/
theorem contains_iff_mem_nodes {next : NodeId → List NodeId} {fuel cap visits : Nat}
    {seeds : List NodeId} {poll : Nat → Bool} {c : Closure}
    (h : search next fuel seeds cap poll = some (c, visits)) (id : NodeId) :
    c.contains id = true ↔ id ∈ c.nodes := by
  obtain ⟨s, hrun, heq⟩ := Option.map_eq_some_iff.mp h
  obtain ⟨rfl, rfl⟩ := Prod.mk.inj heq
  rw [contains, ← HashSet.mem_iff_contains, (indexed_initial seeds).run hrun id, List.mem_reverse]

/-! ## the invariant of a search -/

/-- What holds when the nodes of `done` have been visited. -/
structure Search.Sound (r : NodeId → NodeId → Prop) (seeds done : List NodeId) (s : Search) :
    Prop where
  /-- Nodes wait in the order in which they were taken up, seeds first. -/
  order : done ++ s.queue = newcomers ∅ seeds ++ s.found.reverse
  visited_iff : ∀ x, x ∈ s.visited ↔ x ∈ done ++ s.queue
  nodup : (done ++ s.queue).Nodup
  reached : ∀ x ∈ done ++ s.queue, ∃ n, ReachedIn r seeds n x
  /-- Nothing is missed by a visit. -/
  closed : ∀ x ∈ done, ∀ y, r x y → y ∈ done ++ s.queue
  sorted : (done ++ s.queue).Pairwise fun x y => distance r seeds x ≤ distance r seeds y
  /-- The queue spans two layers at most. -/
  near : ∀ x ∈ done ++ s.queue, ∀ y ∈ s.queue, distance r seeds x ≤ distance r seeds y + 1
  visits_eq : s.visits = done.length
  not_truncated : s.truncated = false

theorem sound_initial (r : NodeId → NodeId → Prop) (seeds : List NodeId) :
    (initial seeds).Sound r seeds [] := by
  have hmem : ∀ {x}, x ∈ newcomers ∅ seeds → x ∈ seeds := fun h => (mem_newcomers.mp h).1
  rw [initial_eq]
  refine ⟨by simp, ?_, nodup_newcomers _ _, ?_, by simp, ?_, ?_, rfl, rfl⟩
  · intro x
    rw [mem_foldl_insert, List.nil_append]
    simp
  · intro x hx
    exact ⟨0, reachedIn_zero (hmem hx)⟩
  · refine List.pairwise_of_forall_mem_list fun x hx y _ => ?_
    rw [distance_of_mem (hmem hx)]
    exact Nat.zero_le _
  · intro x hx y hy
    rw [distance_of_mem (hmem hx)]
    exact Nat.zero_le _

section
variable {r : NodeId → NodeId → Prop} {seeds done rest : List NodeId} {c : NodeId} {s : Search}

theorem Search.Sound.mem_of_seed (h : s.Sound r seeds done) {x : NodeId} (hx : x ∈ seeds) :
    x ∈ done ++ s.queue := by
  rw [h.order]
  exact List.mem_append_left _ (mem_newcomers.mpr ⟨hx, HashSet.not_mem_empty⟩)

/-- The head of the queue is nearest of all that wait. -/
theorem Search.Sound.head_le (h : s.Sound r seeds done) (hq : s.queue = c :: rest) {x : NodeId}
    (hx : x ∈ c :: rest) : distance r seeds c ≤ distance r seeds x := by
  have hsorted := (List.pairwise_append.mp (hq ▸ h.sorted)).2.1
  cases List.mem_cons.mp hx with
  | inl heq => rw [heq]
  | inr hrest => exact (List.pairwise_cons.mp hsorted).1 x hrest

/-- What is nearer than the head of the queue has been visited. -/
theorem Search.Sound.mem_done (h : s.Sound r seeds done) (hq : s.queue = c :: rest) {n : Nat}
    {x : NodeId} (hx : ReachedIn r seeds n x) (hn : n < distance r seeds c) : x ∈ done := by
  -- what is taken up and not yet visited is at least as far as the head
  have hfar : ∀ {n x}, ReachedIn r seeds n x → n < distance r seeds c → x ∈ done ++ s.queue →
      x ∈ done := by
    intro n x hx hn hmem
    rw [hq] at hmem
    cases List.mem_append.mp hmem with
    | inl hdone => exact hdone
    | inr hwait =>
        have hle := h.head_le hq hwait
        have hle' := hx.distance_le
        omega
  obtain ⟨seed, hseed, hwalk⟩ := hx
  induction hwalk with
  | nil a => exact hfar (reachedIn_zero hseed) hn (h.mem_of_seed hseed)
  | snoc hwalk hstep ih =>
      have hdone := ih (by omega) hseed
      exact hfar ⟨_, hseed, hwalk.snoc hstep⟩ hn (h.closed _ hdone _ hstep)

/-- A newcomer is one step further than the node whose visit found it. -/
theorem Search.Sound.distance_newcomer (h : s.Sound r seeds done) (hq : s.queue = c :: rest)
    {y : NodeId} (hstep : r c y) (hnew : y ∉ done ++ s.queue) :
    distance r seeds y = distance r seeds c + 1 := by
  have hc : c ∈ done ++ s.queue := by simp [hq]
  obtain ⟨n, hn⟩ := h.reached c hc
  have hy := hn.reachedIn_distance.step hstep
  apply Nat.le_antisymm hy.distance_le
  -- a shorter walk to `y` would pass through a visited node, and so would have found it
  by_contra hlt
  obtain ⟨seed, hseed, hwalk⟩ := hy.reachedIn_distance
  cases hd : distance r seeds y with
  | zero =>
      rw [hd] at hwalk
      cases hwalk with
      | nil => exact hnew (h.mem_of_seed hseed)
  | succ m =>
      rw [hd] at hwalk
      cases hwalk with
      | snoc hwalk hlast =>
          have hdone := h.mem_done hq ⟨seed, hseed, hwalk⟩ (by omega)
          exact hnew (h.closed _ hdone _ hlast)

/-- **One visit** keeps the invariant; the visited node moves from the queue to `done`. -/
theorem Search.Sound.visit {next : NodeId → List NodeId} (hnext : ∀ a b, b ∈ next a ↔ r a b)
    (h : s.Sound r seeds done) (hq : s.queue = c :: rest) :
    (discover 0 (next c) [] { s with queue := rest, visits := s.visits + 1 }).Sound r seeds
      (done ++ [c]) := by
  obtain ⟨old, hold⟩ : ∃ old, done ++ s.queue = old := ⟨_, rfl⟩
  obtain ⟨news, hnews⟩ : ∃ news, newcomers s.visited (next c) = news := ⟨_, rfl⟩
  have hmem : ∀ y, y ∈ news ↔ r c y ∧ y ∉ old := by
    intro y
    rw [← hnews, mem_newcomers, hnext, h.visited_iff, hold]
  have hcut : (done ++ [c]) ++ (rest ++ news) = old ++ news := by
    rw [← hold, hq]
    simp
  have hc : c ∈ old := by
    rw [← hold, hq]
    simp
  have hdist : ∀ y ∈ news, distance r seeds y = distance r seeds c + 1 := fun y hy =>
    h.distance_newcomer hq ((hmem y).mp hy).1 (hold ▸ ((hmem y).mp hy).2)
  -- every distance so far is at most one above that of the visited node
  have hlayer : ∀ x ∈ old, distance r seeds x ≤ distance r seeds c + 1 := fun x hx =>
    h.near x (hold ▸ hx) c (by simp [hq])
  rw [discover_zero]
  simp only [hnews, List.reverse_nil, List.nil_append]
  constructor
  · rw [hcut, ← hold, h.order]
    simp
  · intro x
    rw [hcut, mem_foldl_insert, h.visited_iff, hold, List.mem_append]
  · rw [hcut, List.nodup_append]
    refine ⟨hold ▸ h.nodup, hnews ▸ nodup_newcomers _ _, ?_⟩
    intro x hx y hy heq
    exact ((hmem y).mp hy).2 (heq ▸ hx)
  · intro x hx
    rw [hcut] at hx
    cases List.mem_append.mp hx with
    | inl hx => exact h.reached x (hold ▸ hx)
    | inr hx =>
        obtain ⟨n, hn⟩ := h.reached c (hold ▸ hc)
        exact ⟨n + 1, hn.step ((hmem x).mp hx).1⟩
  · intro x hx y hstep
    rw [hcut, List.mem_append]
    by_cases hy : y ∈ old
    · exact .inl hy
    · cases List.mem_append.mp hx with
      | inl hx => exact absurd (hold ▸ h.closed x hx y hstep) hy
      | inr hx => exact .inr ((hmem y).mpr ⟨List.mem_singleton.mp hx ▸ hstep, hy⟩)
  · rw [hcut, List.pairwise_append]
    refine ⟨hold ▸ h.sorted, ?_, ?_⟩
    · refine List.pairwise_of_forall_mem_list fun x hx y hy => ?_
      rw [hdist x hx, hdist y hy]
    · intro x hx y hy
      rw [hdist y hy]
      exact hlayer x hx
  · intro x hx y hy
    rw [hcut] at hx
    have hfar : distance r seeds c ≤ distance r seeds y := by
      cases List.mem_append.mp hy with
      | inl hy => exact h.head_le hq (List.mem_cons_of_mem c hy)
      | inr hy => rw [hdist y hy]; omega
    cases List.mem_append.mp hx with
    | inl hx => have := hlayer x hx; omega
    | inr hx => rw [hdist x hx]; omega
  · simp [h.visits_eq]
  · exact h.not_truncated

/-- **A whole search**: when all that is reached lies in a list of nodes, the queue is empty after
at most as many visits, and more fuel makes no difference. -/
theorem run_of_sound {next : NodeId → List NodeId} (hnext : ∀ a b, b ∈ next a ↔ r a b)
    {nodes : List NodeId} (hnodes : ∀ x n, ReachedIn r seeds n x → x ∈ nodes) (k : Nat)
    (h : s.Sound r seeds done) (hk : nodes.length < k + done.length) :
    ∃ done' s', s'.Sound r seeds done' ∧ s'.queue = [] ∧
      ∀ fuel, k ≤ fuel → run next 0 (fun _ => false) fuel s = some s' := by
  induction k generalizing s done with
  | zero =>
      -- more visits than nodes would repeat one
      have hsub : done ⊆ nodes := by
        intro x hx
        obtain ⟨n, hn⟩ := h.reached x (List.mem_append_left _ hx)
        exact hnodes x n hn
      have hle := (h.nodup.of_append_left.subperm hsub).length_le
      omega
  | succ k ih =>
      cases hq : s.queue with
      | nil =>
          refine ⟨done, s, h, hq, ?_⟩
          intro fuel hfuel
          obtain ⟨fuel, rfl⟩ : ∃ m, fuel = m + 1 := ⟨fuel - 1, by omega⟩
          simp [run, hq]
      | cons c rest =>
          obtain ⟨done', s', hs', hq', hrun⟩ := ih (h.visit hnext hq) (by simp; omega)
          refine ⟨done', s', hs', hq', ?_⟩
          intro fuel hfuel
          obtain ⟨fuel, rfl⟩ : ∃ m, fuel = m + 1 := ⟨fuel - 1, by omega⟩
          have hopen := (h.visit hnext hq).not_truncated
          simp only [run, hq, Bool.false_eq_true, and_false, if_false, hopen]
          exact hrun fuel (by omega)

/-- What a search is for: the nodes at the end of one or more steps, the seeds excepted, each once
and the near before the far. -/
structure Exact (r : NodeId → NodeId → Prop) (seeds : List NodeId) (c : Closure) : Prop where
  not_truncated : c.truncated = false
  nodup : c.nodes.Nodup
  mem_iff : ∀ id, id ∈ c.nodes ↔ id ∉ seeds ∧ ∃ s ∈ seeds, Relation.TransGen r s id
  sorted : c.nodes.Pairwise fun a b => distance r seeds a ≤ distance r seeds b

/-- When nothing waits any more, the search has found what it is for. -/
theorem Search.Sound.exact (h : s.Sound r seeds done) (hq : s.queue = []) :
    Exact r seeds ⟨s.found.reverse, s.members, s.truncated⟩ := by
  have horder : done = newcomers ∅ seeds ++ s.found.reverse := by
    have h := h.order
    rwa [hq, List.append_nil] at h
  have hnodup := h.nodup
  have hsorted := h.sorted
  rw [hq, List.append_nil, horder] at hnodup hsorted
  refine ⟨h.not_truncated, hnodup.of_append_right, ?_, (List.pairwise_append.mp hsorted).2.1⟩
  have hseeds : ∀ x ∈ seeds, x ∈ newcomers ∅ seeds := fun x hx =>
    mem_newcomers.mpr ⟨hx, HashSet.not_mem_empty⟩
  have hmem : ∀ x ∈ s.found.reverse, x ∈ done := fun x hx =>
    horder ▸ List.mem_append_right _ hx
  have hreach : ∀ seed ∈ seeds, ∀ x, Relation.ReflTransGen r seed x → x ∈ done := by
    intro seed hseed x hx
    induction hx with
    | refl => exact horder ▸ List.mem_append_left _ (hseeds seed hseed)
    | tail _ hstep ih =>
        have hy := h.closed _ ih _ hstep
        rwa [hq, List.append_nil] at hy
  intro id
  constructor
  · intro hid
    have hout : id ∉ seeds := fun hs =>
      (List.nodup_append.mp hnodup).2.2 id (hseeds id hs) id hid rfl
    obtain ⟨n, hn⟩ := h.reached id (List.mem_append_left _ (hmem id hid))
    exact ⟨hout, hn.transGen hout⟩
  · rintro ⟨hout, seed, hseed, htrans⟩
    have hdone := hreach seed hseed id htrans.to_reflTransGen
    rw [horder] at hdone
    cases List.mem_append.mp hdone with
    | inl hnew => exact absurd (mem_newcomers.mp hnew).1 hout
    | inr hfound => exact hfound

end

/-- **Exactness of a search**: one visit for each seed and each node found, and the result is the
same for every larger fuel. -/
theorem search_exact {next : NodeId → List NodeId} {r : NodeId → NodeId → Prop}
    (hnext : ∀ a b, b ∈ next a ↔ r a b) {nodes : List NodeId} (hnodes : ∀ a b, r a b → b ∈ nodes)
    (seeds : List NodeId) :
    ∃ c visits, Exact r seeds c ∧ visits = seeds.dedup.length + c.nodes.length ∧
      ∀ fuel, seeds.length + nodes.length + 1 ≤ fuel →
        search next fuel seeds 0 (fun _ => false) = some (c, visits) := by
  have hall : ∀ x n, ReachedIn r seeds n x → x ∈ seeds ++ nodes := by
    rintro x n ⟨s, hs, hwalk⟩
    cases hwalk with
    | nil => exact List.mem_append_left _ hs
    | snoc _ hstep => exact List.mem_append_right _ (hnodes _ _ hstep)
  obtain ⟨done, s, hs, hq, hrun⟩ := run_of_sound hnext hall (seeds.length + nodes.length + 1)
    (sound_initial r seeds) (by simp)
  refine ⟨⟨s.found.reverse, s.members, s.truncated⟩, s.visits, hs.exact hq, ?_, ?_⟩
  · have hperm : (newcomers ∅ seeds).Perm seeds.dedup := by
      rw [List.perm_ext_iff_of_nodup (nodup_newcomers _ _) seeds.nodup_dedup]
      simp [mem_newcomers]
    have horder := congrArg List.length hs.order
    rw [hq, List.append_nil, List.length_append, hperm.length_eq] at horder
    rw [hs.visits_eq, horder]
  · intro fuel hfuel
    rw [search, hrun fuel hfuel]
    rfl

end Closure

/-! ## closures of a graph -/

namespace Graph

/-- One step over the edges of a kind, with them or against them. -/
def Adjacent (g : Graph) (kind : EdgeKind) : Direction → NodeId → NodeId → Prop
  | .forward, a, b => g.Linked kind a b
  | .backward, a, b => g.Linked kind b a

namespace WellFormed

variable {g : Graph}

theorem mem_step (hg : g.WellFormed) (kind : EdgeKind) (direction : Direction) (a b : NodeId) :
    b ∈ g.step kind direction a ↔ g.Adjacent kind direction a b := by
  cases direction with
  | forward =>
      rw [Adjacent, ← hg.mem_successors, successors, NodeId.mem_setOf]
      rfl
  | backward =>
      rw [Adjacent, ← hg.mem_predecessors, predecessors, NodeId.mem_setOf]
      rfl

/-- A closure without a cap is exact, whatever the seeds. -/
theorem closure_exact (hg : g.WellFormed) (direction : Direction) (kind : EdgeKind)
    (seeds : List NodeId) :
    ∃ c visits, c.Exact (g.Adjacent kind direction) seeds ∧
      visits = seeds.dedup.length + c.nodes.length ∧
      ∀ fuel, seeds.length + g.edges.size + 1 ≤ fuel →
        Closure.search (g.step kind direction) fuel seeds 0 (fun _ => false) =
          some (c, visits) := by
  obtain ⟨ends, hlength, hend⟩ : ∃ ends : List NodeId, ends.length = g.edges.size ∧
      ∀ a b, g.Adjacent kind direction a b → b ∈ ends := by
    cases direction with
    | forward =>
        refine ⟨g.edges.toList.map (·.target), by simp, ?_⟩
        rintro a b ⟨line, e, he, -, -, rfl, -⟩
        exact List.mem_map.mpr ⟨e, Array.mem_toList_iff.mpr he, rfl⟩
    | backward =>
        refine ⟨g.edges.toList.map (·.source), by simp, ?_⟩
        rintro a b ⟨line, e, he, -, rfl, -⟩
        exact List.mem_map.mpr ⟨e, Array.mem_toList_iff.mpr he, rfl⟩
  obtain ⟨c, visits, hc, hvisits, hsearch⟩ :=
    Closure.search_exact (hg.mem_step kind direction) hend seeds
  refine ⟨c, visits, hc, hvisits, ?_⟩
  intro fuel hfuel
  exact hsearch fuel (by rwa [hlength])

end WellFormed

/-- **Closures are exact**: for every graph that a builder holds and all seeds, also repeated or
unknown ones, the closure without a cap ends (its result is that of every larger fuel, so the queue
ran empty), and it lists the nodes reached over one or more edges of the kind that are no seeds,
each once, in order of distance; looking a node up tells whether it is listed. -/
theorem Built.closure_reachable {g : Graph} (hg : g.Built) (direction : Direction) (kind : EdgeKind)
    (seeds : List NodeId) :
    ∃ c visits, g.closure direction kind seeds 0 (fun _ => false) = some (c, visits) ∧
      (∀ fuel, seeds.length + g.edges.size + 1 ≤ fuel →
        Closure.search (g.step kind direction) fuel seeds 0 (fun _ => false) = some (c, visits)) ∧
      visits = seeds.dedup.length + c.nodes.length ∧
      c.truncated = false ∧ c.nodes.Nodup ∧
      (∀ id, id ∈ c.nodes ↔
        id ∉ seeds ∧ ∃ s ∈ seeds, Relation.TransGen (g.Adjacent kind direction) s id) ∧
      (c.nodes.Pairwise fun a b =>
        distance (g.Adjacent kind direction) seeds a ≤
          distance (g.Adjacent kind direction) seeds b) ∧
      ∀ id, c.contains id = true ↔ id ∈ c.nodes := by
  obtain ⟨c, visits, hc, hvisits, hsearch⟩ := hg.wellFormed.closure_exact direction kind seeds
  refine ⟨c, visits, hsearch _ (Nat.le_refl _), hsearch, hvisits, hc.not_truncated, hc.nodup,
    hc.mem_iff, hc.sorted, ?_⟩
  exact Closure.contains_iff_mem_nodes (hsearch _ (Nat.le_refl _))

/-! ## a small graph -/

/-- A class with a field, a getter that reads it, an overload of the getter, and a method that calls
the overload and is called by it. -/
def gettersFacts : List Operation :=
  [.fact (.file "A.java" "/A.java"), .fact (.type "A" ""), .fact (.field "x"),
    .fact (.method "get()"), .fact (.method "get(int)"), .fact (.method "run()"),
    .fact (.link .contains 1 2 1), .fact (.link .hasField 2 3 2), .fact (.link .contains 2 4 3),
    .fact (.link .contains 2 5 4), .fact (.link .contains 2 6 5), .fact (.link .reads 4 3 3),
    .fact (.link .calls 6 5 5), .fact (.link .calls 5 6 4)]

/-- The graph of these facts. -/
def getters : Graph := (Builder.after gettersFacts (Builder.new 0)).graph

theorem getters_built : getters.Built := ⟨0, gettersFacts, rfl⟩

section
open Builder

/-- All facts are accepted. -/
theorem getters_eq : getters =
    [EdgeKey.mk .contains 1 2 1, ⟨.hasField, 2, 3, 2⟩, ⟨.contains, 2, 4, 3⟩, ⟨.contains, 2, 5, 4⟩,
      ⟨.contains, 2, 6, 5⟩, ⟨.reads, 4, 3, 3⟩, ⟨.calls, 6, 5, 5⟩, ⟨.calls, 5, 6, 4⟩].foldl
      (fun g k => insertEdge g ⟨g.edges.size + 1, k.kind, k.source, k.target, k.line, 0, certain⟩)
      ([Symbol.field "x" [], .method "get()" "" [], .method "get(int)" "" [],
        .method "run()" "" []].foldl insertNode
        (update (insertNode (insertNode empty (.file "A.java" "/A.java")) (.type "A" "")) 2
          (withFilePath ""))) := by
  simp [getters, gettersFacts, after, Operation.perform, ingest, run_map, upsertFile, upsertType,
    upsertField, upsertMethod, run_bind, run_modify, upsert_run_of_new, link_run, Builder.new,
    node?_insertNode, find?_insertNode, node?_update, Text.isBlank, Symbol.key, Symbol.kind,
    Text.isBlankChar, Node.kind, EdgeKind.joins, withFilePath, Edge.key]

end

theorem getters_edges : getters.edges.toList.map Edge.key =
    [⟨.contains, 1, 2, 1⟩, ⟨.hasField, 2, 3, 2⟩, ⟨.contains, 2, 4, 3⟩, ⟨.contains, 2, 5, 4⟩,
      ⟨.contains, 2, 6, 5⟩, ⟨.reads, 4, 3, 3⟩, ⟨.calls, 6, 5, 5⟩, ⟨.calls, 5, 6, 4⟩] := by
  simp [getters_eq, Edge.key]

theorem getters_linked :
    getters.Linked .contains 1 2 ∧ getters.Linked .hasField 2 3 ∧ getters.Linked .contains 2 4 ∧
      getters.Linked .contains 2 6 ∧ getters.Linked .reads 4 3 ∧ getters.Linked .calls 6 5 := by
  have h : ∀ k ∈ getters.edges.toList.map Edge.key, getters.Linked k.kind k.source k.target :=
    fun k hk => ⟨k.line, linkedAt_iff_key.mpr hk⟩
  simp only [getters_edges, List.forall_mem_cons] at h
  obtain ⟨hfile, hfield, hget, -, hrun, hreads, hcalls, -⟩ := h
  exact ⟨hfile, hfield, hget, hrun, hreads, hcalls⟩

theorem getters_find? :
    getters.find? .file "/A.java" = some 1 ∧ getters.find? .type "A" = some 2 ∧
      getters.find? .field "x" = some 3 ∧ getters.find? .method "get()" = some 4 ∧
      getters.find? .method "get(int)" = some 5 ∧ getters.find? .method "run()" = some 6 := by
  simp [getters_eq, find?_insertNode, Symbol.key, Symbol.kind]

/-- The overload of the getter has one caller, on the other side of the cycle. -/
theorem getters_callers {seeds : List NodeId} {c : Closure}
    (hc : c.Exact (getters.Adjacent .calls .backward) seeds) (hin : 5 ∈ seeds) (hout : 6 ∉ seeds) :
    c.nodes = [6] := by
  obtain ⟨-, -, -, -, -, hcalls⟩ := getters_linked
  -- a caller is the source of one of the two calls
  have hsource : ∀ id x, getters.Linked .calls id x → id = 6 ∨ id = 5 := by
    rintro id x ⟨line, hline⟩
    simp only [linkedAt_iff_key, getters_edges, List.mem_cons, EdgeKey.mk.injEq] at hline
    tauto
  refine List.perm_singleton.mp
    ((List.perm_ext_iff_of_nodup hc.nodup (List.nodup_singleton 6)).mpr fun id => ?_)
  rw [hc.mem_iff, List.mem_singleton]
  constructor
  · rintro ⟨hid, s, -, htrans⟩
    obtain ⟨x, -, hstep⟩ := Relation.TransGen.tail'_iff.mp htrans
    exact (hsource id x hstep).resolve_right fun heq => hid (heq ▸ hin)
  · rintro rfl
    exact ⟨hout, 5, hin, .single hcalls⟩

/-- A seed that is given twice, lies on a cycle and stands beside an unknown one is not listed, and
the method on the other side of the cycle is. -/
theorem getters_closure :
    getters.Built ∧ ∃ c visits,
      getters.closure .backward .calls [5, 5, 99] 0 (fun _ => false) = some (c, visits) ∧
        c.truncated = false ∧ 6 ∈ c.nodes ∧ 5 ∉ c.nodes := by
  obtain ⟨c, visits, hclosure, -, -, htruncated, -, hmem, -⟩ :=
    getters_built.closure_reachable .backward .calls [5, 5, 99]
  obtain ⟨-, -, -, -, -, hcalls⟩ := getters_linked
  refine ⟨getters_built, c, visits, hclosure, htruncated, ?_, ?_⟩
  · exact (hmem 6).mpr ⟨by decide, 5, by decide, .single hcalls⟩
  · exact fun h => ((hmem 5).mp h).1 (by decide)

end Graph

end Ripple
