import Ripple.Proofs.Graph.Closure

/-!
# Ripple.Proofs.Graph.Cap

A search with a cap finds the first nodes of the search without one.

As long as the cap is not exceeded the two searches go through the same states (`discover_of_fits`).
On the visit where it would be, the capped search stops with the newcomers that still fit
(`discover_of_exceeds`), and the other one only adds nodes behind them (`found_suffix_run`).  So the
closure under a cap is `Closure.cut` of the closure without, for every cap, none included.
-/

namespace Ripple

open Std

/-- The nodes that a cap leaves; a cap of zero is none. -/
def Closure.cut (cap : Nat) (nodes : List NodeId) : List NodeId :=
  if cap = 0 then nodes else nodes.take cap

/-- Whether a cap leaves out nodes. -/
def Closure.exceeds (cap : Nat) (nodes : List NodeId) : Bool :=
  decide (0 < cap ∧ cap < nodes.length)

namespace Closure

@[simp] theorem cut_zero (nodes : List NodeId) : cut 0 nodes = nodes := rfl

@[simp] theorem exceeds_zero (nodes : List NodeId) : exceeds 0 nodes = false := by simp [exceeds]

theorem cut_subset (cap : Nat) (nodes : List NodeId) : cut cap nodes ⊆ nodes := by
  unfold cut
  split
  · exact List.Subset.refl nodes
  · exact List.take_subset cap nodes

/-- What is not exceeded is left whole. -/
theorem cut_of_not_exceeds {cap : Nat} {nodes : List NodeId} (h : exceeds cap nodes = false) :
    cut cap nodes = nodes := by
  unfold cut
  split
  · rfl
  · next hcap =>
      have hle : ¬ cap < nodes.length := fun hlt => by simp [exceeds, hlt] at h; omega
      exact List.take_of_length_le (Nat.le_of_not_lt hle)

/-- A cap leaves one node at least, if there is one. -/
@[simp] theorem isEmpty_cut (cap : Nat) (nodes : List NodeId) :
    (cut cap nodes).isEmpty = nodes.isEmpty := by
  unfold cut
  split
  · rfl
  · next hcap =>
      cases nodes with
      | nil => simp
      | cons n ns =>
          obtain ⟨k, rfl⟩ : ∃ k, cap = k + 1 := ⟨cap - 1, by omega⟩
          rfl

/-! ## one visit -/

/-- While the cap is kept, a visit takes up all newcomers. -/
theorem discover_of_fits {cap : Nat} (ns fresh : List NodeId) (s : Search)
    (h : s.size + (newcomers s.visited ns).length ≤ cap) :
    discover cap ns fresh s = discover 0 ns fresh s := by
  induction ns generalizing fresh s with
  | nil => rfl
  | cons n ns ih =>
      rw [newcomers] at h
      rw [discover, discover]
      split
      · next hn =>
          rw [if_pos hn] at h
          exact ih fresh s h
      · next hn =>
          rw [if_neg hn, List.length_cons] at h
          have hroom : ¬ (0 < cap ∧ cap ≤ s.size) := by omega
          have hnone : ¬ (0 < 0 ∧ 0 ≤ s.size) := by omega
          rw [if_neg hroom, if_neg hnone]
          exact ih _ _ (by simp only; omega)

/-- The visit that would exceed the cap takes up the newcomers that still fit, and stops. -/
theorem discover_of_exceeds {cap : Nat} (hcap : 0 < cap) (ns fresh : List NodeId) (s : Search)
    (hsize : s.size ≤ cap) (h : cap < s.size + (newcomers s.visited ns).length) :
    (discover cap ns fresh s).truncated = true ∧
      (discover cap ns fresh s).found =
        ((newcomers s.visited ns).take (cap - s.size)).reverse ++ s.found := by
  induction ns generalizing fresh s with
  | nil => simp [newcomers] at h; omega
  | cons n ns ih =>
      rw [newcomers] at h ⊢
      rw [discover]
      split
      · next hn =>
          rw [if_pos hn] at h
          exact ih fresh s hsize h
      · next hn =>
          rw [if_neg hn, List.length_cons] at h
          split
          · next hfull =>
              have hroom : cap - s.size = 0 := by omega
              simp [hroom]
          · next hopen =>
              obtain ⟨room, hroom⟩ : ∃ room, cap - s.size = room + 1 := ⟨cap - s.size - 1, by omega⟩
              have hroom' : cap - (s.size + 1) = room := by omega
              obtain ⟨htruncated, hfound⟩ := ih (n :: fresh)
                { s with
                  visited := s.visited.insert n
                  found := n :: s.found
                  members := s.members.insert n
                  size := s.size + 1 }
                (by simp only; omega) (by simp only; omega)
              refine ⟨htruncated, ?_⟩
              rw [hfound, hroom, hroom']
              simp

/-! ## a whole search -/

/-- A search never loses what it has found. -/
theorem found_suffix_run {next : NodeId → List NodeId} {fuel : Nat} {s s' : Search}
    (h : run next 0 (fun _ => false) fuel s = some s') : s.found <:+ s'.found := by
  induction fuel generalizing s with
  | zero => rw [Option.some.inj h]
  | succ fuel ih =>
      cases hq : s.queue with
      | nil =>
          simp only [run, hq] at h
          rw [Option.some.inj h]
      | cons c rest =>
          simp only [run, hq, Bool.false_eq_true, and_false, if_false] at h
          have hgrows : s.found <:+ (discover 0 (next c) []
              { s with queue := rest, visits := s.visits + 1 }).found := by
            rw [discover_zero]
            exact List.suffix_append _ _
          split at h
          · rw [← Option.some.inj h]
            exact hgrows
          · exact hgrows.trans (ih h)

/-- A search that has ended within the cap has found what the cap leaves. -/
theorem take_of_ended {cap : Nat} {s : Search} (hopen : s.truncated = false)
    (hlength : s.size = s.found.length) (hsize : s.size ≤ cap) :
    s.found.reverse = s.found.reverse.take cap ∧ s.truncated = decide (cap < s.found.length) := by
  have hle : s.found.reverse.length ≤ cap := by
    rw [List.length_reverse]
    omega
  have hlt : ¬ cap < s.found.length := by omega
  rw [List.take_of_length_le hle, hopen]
  simp [hlt]

/-- **A capped search** finds the first nodes of the search without a cap. -/
theorem run_capped {next : NodeId → List NodeId} {cap : Nat} (hcap : 0 < cap) {fuel : Nat}
    {s s' : Search} (hopen : s.truncated = false) (hlength : s.size = s.found.length)
    (hsize : s.size ≤ cap) (h : run next 0 (fun _ => false) fuel s = some s') :
    ∃ t, run next cap (fun _ => false) fuel s = some t ∧
      t.found.reverse = s'.found.reverse.take cap ∧
        t.truncated = decide (cap < s'.found.length) := by
  induction fuel generalizing s with
  | zero =>
      obtain rfl := Option.some.inj h
      exact ⟨s, rfl, take_of_ended hopen hlength hsize⟩
  | succ fuel ih =>
      cases hq : s.queue with
      | nil =>
          simp only [run, hq] at h ⊢
          obtain rfl := Option.some.inj h
          exact ⟨s, rfl, take_of_ended hopen hlength hsize⟩
      | cons c rest =>
          obtain ⟨s₀, hs₀⟩ : ∃ s₀ : Search, { s with queue := rest, visits := s.visits + 1 } = s₀ :=
            ⟨_, rfl⟩
          obtain ⟨s₁, hs₁⟩ : ∃ s₁, discover 0 (next c) [] s₀ = s₁ := ⟨_, rfl⟩
          obtain ⟨news, hnews⟩ : ∃ news, newcomers s.visited (next c) = news := ⟨_, rfl⟩
          have hfound : s₁.found = news.reverse ++ s.found := by
            rw [← hs₁, ← hs₀, discover_zero, ← hnews]
          have hsize₁ : s₁.size = s.size + news.length := by
            rw [← hs₁, ← hs₀, discover_zero, ← hnews]
          have hopen₁ : s₁.truncated = false := by
            rw [← hs₁, ← hs₀, discover_zero]
            exact hopen
          simp only [run, hq, Bool.false_eq_true, and_false, if_false, hs₀, hs₁, hopen₁] at h ⊢
          by_cases hfits : s.size + news.length ≤ cap
          · have hsame : discover cap (next c) [] s₀ = s₁ := by
              rw [← hs₁]
              exact discover_of_fits _ _ _ (by rw [← hs₀, hnews]; exact hfits)
            simp only [hsame, hopen₁, Bool.false_eq_true, if_false]
            exact ih hopen₁ (by rw [hsize₁, hfound]; simp; omega) (by omega) h
          · -- the uncapped search goes on behind the nodes that the cap cuts off
            obtain ⟨htruncated, hcut⟩ := discover_of_exceeds hcap (next c) [] s₀
              (by rw [← hs₀]; exact hsize) (by rw [← hs₀, hnews]; simp only; omega)
            obtain ⟨more, hmore⟩ := found_suffix_run h
            refine ⟨discover cap (next c) [] s₀, by simp [htruncated], ?_, ?_⟩
            · rw [hcut, ← hmore, hfound, ← hs₀, hnews]
              simp only [List.reverse_append, List.reverse_reverse, List.append_assoc]
              have hlast : s.found.reverse.length = s.size := by rw [List.length_reverse, hlength]
              have hfront : s.found.reverse.take cap = s.found.reverse :=
                List.take_of_length_le (by omega)
              rw [List.take_append, hlast, hfront, List.take_append_of_le_length (by omega)]
            · rw [htruncated, ← hmore, hfound]
              simp
              omega

/-- **The closure under a cap** is what the cap leaves of the closure without one. -/
theorem search_capped {next : NodeId → List NodeId} {fuel : Nat} {seeds : List NodeId} {c : Closure}
    {visits : Nat} (h : search next fuel seeds 0 (fun _ => false) = some (c, visits))
    (hc : c.truncated = false) (cap : Nat) :
    ∃ c' visits, search next fuel seeds cap (fun _ => false) = some (c', visits) ∧
      c'.nodes = cut cap c.nodes ∧ c'.truncated = exceeds cap c.nodes := by
  cases cap with
  | zero => exact ⟨c, visits, h, rfl, by rw [hc, exceeds_zero]⟩
  | succ k =>
      obtain ⟨s', hrun, hs'⟩ := Option.map_eq_some_iff.mp h
      obtain ⟨rfl, rfl⟩ := Prod.mk.inj hs'
      have hinitial := initial_eq seeds
      obtain ⟨t, ht, hfound, htruncated⟩ := run_capped (Nat.succ_pos k)
        (by rw [hinitial]) (by rw [hinitial]; rfl) (by rw [hinitial]; exact Nat.zero_le _) hrun
      refine ⟨⟨t.found.reverse, t.members, t.truncated⟩, t.visits,
        by rw [search, ht, Option.map_some], ?_, ?_⟩
      · simpa [cut] using hfound
      · simpa [exceeds] using htruncated

end Closure

namespace Graph.WellFormed

variable {g : Graph}

/-- For all caps at once: one list of nodes, of which a cap leaves the first. -/
theorem closure_capped (hg : g.WellFormed) (direction : Direction) (kind : EdgeKind)
    (seeds : List NodeId) :
    ∃ c : Closure, c.Exact (g.Adjacent kind direction) seeds ∧ ∀ cap, ∃ c' visits,
      g.closure direction kind seeds cap (fun _ => false) = some (c', visits) ∧
        c'.nodes = Closure.cut cap c.nodes ∧ c'.truncated = Closure.exceeds cap c.nodes := by
  obtain ⟨c, visits, hc, -, hsearch⟩ := hg.closure_exact direction kind seeds
  exact ⟨c, hc, Closure.search_capped (hsearch _ (Nat.le_refl _)) hc.not_truncated⟩

end Graph.WellFormed

/-! ## limits -/

namespace Closure

/-- A positive limit is its own cap. -/
theorem capOf_of_pos {limit : Int} (h : 0 < limit) :
    0 < capOf limit ∧ (capOf limit : Int) = limit := by
  unfold capOf
  omega

theorem capOf_of_nonpos {limit : Int} (h : limit ≤ 0) : capOf limit = 0 :=
  Int.toNat_of_nonpos h

/-- What a cap leaves, counted. -/
theorem cut_eq_take_min {cap : Nat} (hcap : 0 < cap) (nodes : List NodeId) :
    cut cap nodes = nodes.take (min cap nodes.length) := by
  rw [cut, if_neg (Nat.ne_of_gt hcap), List.take_eq_take_min]

end Closure

namespace Graph

/-- **A limit keeps the first nodes**: for every graph that a builder holds and all seeds, there is
one closure without a cap, and the closure under a positive limit lists the first of its nodes, as
many as the limit allows, and is marked as truncated exactly when that leaves one out.  A limit of
zero or less changes nothing. -/
theorem Built.closure_limited {g : Graph} (hg : g.Built) (direction : Direction) (kind : EdgeKind)
    (seeds : List NodeId) :
    ∃ c visits, c.Exact (g.Adjacent kind direction) seeds ∧
      g.closure direction kind seeds 0 (fun _ => false) = some (c, visits) ∧
      ∀ limit : Int,
        (0 < limit → ∃ c' visits',
          g.closure direction kind seeds (Closure.capOf limit) (fun _ => false) =
              some (c', visits') ∧
            c'.nodes = c.nodes.take (min limit.toNat c.nodes.length) ∧
            (c'.truncated = true ↔ limit < c.nodes.length)) ∧
        (limit ≤ 0 →
          g.closure direction kind seeds (Closure.capOf limit) (fun _ => false) =
            some (c, visits)) := by
  obtain ⟨c, visits, hc, -, hsearch⟩ := hg.wellFormed.closure_exact direction kind seeds
  have hclosure := hsearch _ (Nat.le_refl _)
  refine ⟨c, visits, hc, hclosure, ?_⟩
  intro limit
  constructor
  · intro hlimit
    obtain ⟨hcap, hlimit⟩ := Closure.capOf_of_pos hlimit
    obtain ⟨c', visits', hcapped, hnodes, htruncated⟩ :=
      Closure.search_capped hclosure hc.not_truncated (Closure.capOf limit)
    refine ⟨c', visits', hcapped, hnodes.trans (Closure.cut_eq_take_min hcap c.nodes), ?_⟩
    rw [htruncated, ← hlimit, Int.ofNat_lt, Closure.exceeds, decide_eq_true_iff]
    exact and_iff_right hcap
  · intro hlimit
    rw [Closure.capOf_of_nonpos hlimit]
    exact hclosure

/-- A limit of one cuts the class and its methods off behind the class, and leaves the only caller
of an overload as it is. -/
theorem getters_closure_limited :
    getters.Built ∧
      (∃ c visits, getters.closure .forward .contains [1] (Closure.capOf 1) (fun _ => false) =
        some (c, visits) ∧ c.nodes.length = 1 ∧ c.truncated = true) ∧
      ∃ c visits, getters.closure .backward .calls [5] (Closure.capOf 1) (fun _ => false) =
        some (c, visits) ∧ c.nodes = [6] ∧ c.truncated = false := by
  obtain ⟨hfile, -, hget, -⟩ := getters_linked
  refine ⟨getters_built, ?_, ?_⟩
  · obtain ⟨c, visits, hc, -, hlimit⟩ := getters_built.closure_limited .forward .contains [1]
    obtain ⟨c', visits', hclosure, hnodes, htruncated⟩ := (hlimit 1).1 (by decide)
    have hsub : [2, 4] ⊆ c.nodes := by
      simp only [List.cons_subset, List.nil_subset, and_true, hc.mem_iff]
      exact ⟨⟨by decide, 1, by decide, .single hfile⟩,
        ⟨by decide, 1, by decide, .tail (.single hfile) hget⟩⟩
    have hlong : 2 ≤ c.nodes.length := (List.Nodup.subperm (by decide) hsub).length_le
    refine ⟨c', visits', hclosure, ?_, htruncated.mpr (by omega)⟩
    rw [hnodes, List.length_take]
    simp only [Int.toNat_one]
    omega
  · obtain ⟨c, visits, hc, -, hlimit⟩ := getters_built.closure_limited .backward .calls [5]
    obtain ⟨c', visits', hclosure, hnodes, htruncated⟩ := (hlimit 1).1 (by decide)
    rw [getters_callers hc (by decide) (by decide)] at hnodes htruncated
    exact ⟨c', visits', hclosure, hnodes, by simpa using htruncated⟩

end Graph

end Ripple
