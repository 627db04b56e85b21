import Ripple.Impact.Query

/-!
# Ripple.Metrics

Counts of what the program did.  They grow only; the samples are the counts under the names by which
monitoring knows them.
-/

namespace Ripple

/-- Something worth counting. -/
inductive Observation where
  /-- A rebuild took so many nanoseconds. -/
  | rebuild (took : Int) (failed : Bool)
  /-- A rebuild was refused because one was running. -/
  | conflict
  | size (nodes edges : Int)
  /-- A query of a kind ended with a code. -/
  | query (kind : String) (code : Code)
  deriving DecidableEq, Repr

namespace Observation

/-- The code under which the end of a query counts. -/
def codeOf : Except Failure α → Code
  | .ok _ => "OK"
  | .error f => f.code

/-- The observation of a question and what came of it. -/
def ofQuery (q : Question) (r : Except Failure α) : Observation := .query q.word (codeOf r)

/-- Whether this is a rebuild with the given result. -/
def isRebuild (failure : Bool) : Observation → Bool
  | rebuild _ f => f == failure
  | _ => false

/-- How long a rebuild took. -/
def rebuildTime? : Observation → Option Int
  | rebuild d _ => some d
  | _ => none

end Observation

/-- What was counted, in order. -/
abbrev Metrics := List Observation

namespace Metrics

/-- The upper bounds of the groups that rebuild times are counted in: their text and length
in nanoseconds. -/
def rebuildBounds : List (String × Int) :=
  [("0.1", 100000000), ("0.5", 500000000), ("1", 1000000000), ("2", 2000000000),
   ("5", 5000000000), ("10", 10000000000), ("30", 30000000000), ("60", 60000000000),
   ("120", 120000000000), ("300", 300000000000)]

/-- The name of a sample with its labels. -/
def name (base : String) (labels : List (String × String)) : String :=
  "beyondsight_" ++ base ++ "\x7b" ++
    ",".intercalate (labels.map fun (k, v) => k ++ "=" ++ v) ++ "\x7d"

/-- The kinds and codes of the queries that were counted, each once. -/
def queryKinds (m : Metrics) : List (String × Code) :=
  (m.filterMap fun
    | .query k c => some (k, c)
    | _ => none).eraseDups

/-- How often each thing happened; what never did is left out. -/
def samples (m : Metrics) : List (String × Nat) :=
  let times := m.filterMap Observation.rebuildTime?
  let duration := name "index_rebuild_duration_seconds" []
  let all :=
    [(name "index_rebuilds_total" [("outcome", "completed")], m.countP (·.isRebuild false)),
     (name "index_rebuilds_total" [("outcome", "failed")], m.countP (·.isRebuild true)),
     (duration, times.length)] ++
    rebuildBounds.map (fun (text, bound) =>
      (duration ++ " le=" ++ text, times.countP (· ≤ bound))) ++
    [(name "index_rescan_conflicts_total" [], m.count .conflict)] ++
    (queryKinds m).map fun (k, c) =>
      (name "impact_query_duration_seconds" [("code", c), ("query", k)], m.count (.query k c))
  all.filter (·.2 != 0)

/-- The size of the graph that was published last. -/
def gauges (m : Metrics) : List (String × Int) :=
  match m.reverse.findSome? fun
    | .size n e => some (n, e)
    | _ => none with
  | some (n, e) =>
    [(name "graph_size" [("kind", "edges")], e), (name "graph_size" [("kind", "nodes")], n)]
  | none => []

end Metrics

end Ripple
