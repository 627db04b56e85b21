import Ripple.Graph.Builder

/-!
# Ripple.Graph.Store

The published graph.  Queries take the snapshot that is published when they start; publishing
another one does not change the value they hold.
-/

namespace Ripple

/-- Holds the graph that queries see. -/
structure Store where
  snapshot : Graph

namespace Store

/-- A store that publishes the empty graph. -/
def new : Store := ⟨Graph.empty⟩

/-- Publishes a builder's graph.  The builder is frozen by it; the snapshot before is returned. -/
def swap (s : Store) (b : Builder) : Graph × Store × Builder :=
  (s.snapshot, ⟨b.graph⟩, b.freeze)

/-- Publishes the empty graph. -/
def clear (_ : Store) : Store := new

end Store

end Ripple
