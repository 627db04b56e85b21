import Ripple.Graph.Basic

/-!
# Ripple.Graph.Closure

Transitive closures by breadth-first search.  From a list of seeds the search collects the nodes at
the end of one or more steps, in order of discovery; the seeds themselves are not part of the
closure, also where a cycle leads back to them.

The search is written over an arbitrary `next`.  Two things can end it early:

* a `cap`: when one more node would exceed it, the closure is `truncated`;
* a cancelled caller: after every 256th visit the caller is asked (`poll`), and a `true` gives up
  the search without a result.
-/

namespace Ripple

open Std

/-- The nodes that a search found. -/
structure Closure where
  /-- In order of discovery. -/
  nodes : List NodeId
  /-- The same nodes, for looking them up. -/
  members : HashSet NodeId
  /-- The cap stopped the search before its end. -/
  truncated : Bool

namespace Closure

/-- Whether a node was found. -/
def contains (c : Closure) (id : NodeId) : Bool := c.members.contains id

/-- The cap that a limit stands for; a limit of zero or less is none. -/
def capOf (limit : Int) : Nat := limit.toNat

/-- After so many visits the caller is asked whether to go on. -/
def pollInterval : Nat := 256

/-- The state of a search. -/
structure Search where
  /-- Seeds and found nodes. -/
  visited : HashSet NodeId
  /-- Found nodes, the latest first. -/
  found : List NodeId
  /-- Found nodes, for looking them up. -/
  members : HashSet NodeId
  /-- How many nodes were found. -/
  size : Nat
  /-- Nodes that wait for their visit, in order. -/
  queue : List NodeId
  /-- How many nodes were visited. -/
  visits : Nat
  truncated : Bool

/-- Takes up the neighbours of a visited node.  `fresh` are those found on this visit, the latest
first. -/
def discover (cap : Nat) : List NodeId → List NodeId → Search → Search
  | [], fresh, s => { s with queue := s.queue ++ fresh.reverse }
  | n :: ns, fresh, s =>
    if s.visited.contains n then discover cap ns fresh s
    else if 0 < cap ∧ cap ≤ s.size then { s with truncated := true }
    else
      discover cap ns (n :: fresh)
        { s with
          visited := s.visited.insert n
          found := n :: s.found
          members := s.members.insert n
          size := s.size + 1 }

/-- Visits nodes until none waits; `none` when the caller has cancelled.  The fuel bounds the number
of visits. -/
def run (next : NodeId → List NodeId) (cap : Nat) (poll : Nat → Bool) : Nat → Search → Option Search
  | 0, s => some s
  | fuel + 1, s =>
    match s.queue with
    | [] => some s
    | current :: waiting =>
      let visits := s.visits + 1
      if visits % pollInterval = 0 ∧ poll (visits / pollInterval - 1) then none
      else
        let s := discover cap (next current) [] { s with queue := waiting, visits := visits }
        if s.truncated then some s else run next cap poll fuel s

/-- The distinct seeds, in order of first occurrence, with the set of them. -/
def start : List NodeId → Search → Search
  | [], s => { s with queue := s.queue.reverse }
  | seed :: seeds, s =>
    if s.visited.contains seed then start seeds s
    else start seeds { s with visited := s.visited.insert seed, queue := seed :: s.queue }

/-- The search before its first visit. -/
def initial (seeds : List NodeId) : Search :=
  start seeds ⟨∅, [], ∅, 0, [], 0, false⟩

/-- The closure of some seeds under `next`, with the number of visits; a `cap` of zero is none. -/
def search (next : NodeId → List NodeId) (fuel : Nat) (seeds : List NodeId) (cap : Nat)
    (poll : Nat → Bool) : Option (Closure × Nat) :=
  (run next cap poll fuel (initial seeds)).map fun s =>
    (⟨s.found.reverse, s.members, s.truncated⟩, s.visits)

end Closure

/-- Which way edges are followed. -/
inductive Direction where
  | forward | backward
  deriving DecidableEq, Repr

namespace Graph

/-- The nodes one step away from a node. -/
def step (g : Graph) (kind : EdgeKind) : Direction → NodeId → List NodeId
  | .forward, id => (g.outgoing id kind).map (·.target)
  | .backward, id => (g.incoming id kind).map (·.source)

/-- The closure of some seeds over the edges of a kind.  Each visit is of a seed or of an end of
an edge, each at most once, which gives the fuel. -/
def closure (g : Graph) (direction : Direction) (kind : EdgeKind) (seeds : List NodeId) (cap : Nat)
    (poll : Nat → Bool) : Option (Closure × Nat) :=
  Closure.search (g.step kind direction) (seeds.length + g.edges.size + 1) seeds cap poll

end Graph

end Ripple
