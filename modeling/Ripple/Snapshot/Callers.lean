import Ripple.Failure
import Ripple.Risk
import Ripple.Snapshot.Tables

/-!
# Ripple.Snapshot.Callers

Risk scores from stored rows.  Direct callers are the distinct sources of the calls to a method;
transitive ones are followed over at most `depthLimit` calls, and a method is never counted among
its own.
-/

namespace Ripple.Snapshot

open Std

/-- How many calls lie between a method and the farthest caller that is counted. -/
def depthLimit : Nat := 50

/-- The sources of the edges of a kind, by target. -/
def sourcesByTarget (t : Tables) (kind : EdgeKind) : HashMap Int (List Int) :=
  (t.edges.filter (·.kind == kind.label)).foldl
    (fun m e => m.alter e.target fun xs => some (e.source :: xs.getD [])) ∅

/-- The members of a list that are not in a set, each once, with the set that includes them. -/
def newcomers (seen : HashSet Int) : List Int → HashSet Int × List Int
  | [] => (seen, [])
  | x :: xs =>
    if seen.contains x then newcomers seen xs
    else
      let (all, rest) := newcomers (seen.insert x) xs
      (all, x :: rest)

/-- What can be reached from a frontier in at most `depth` steps, on top of what was seen. -/
def reach (next : Int → List Int) : Nat → HashSet Int → List Int → HashSet Int
  | 0, seen, _ => seen
  | depth + 1, seen, frontier =>
    let (seen, fresh) := newcomers seen (frontier.flatMap next)
    if fresh.isEmpty then seen else reach next depth seen fresh

/-- How many distinct direct callers a method has. -/
def directCallers (callers : HashMap Int (List Int)) (id : Int) : Nat :=
  (NodeId.setOf (callers.getD id [])).length

/-- How many distinct methods other than itself call a method, over any path within the limit. -/
def totalCallers (callers : HashMap Int (List Int)) (id : Int) : Nat :=
  ((reach (callers.getD · []) depthLimit ∅ [id]).erase id).size

/-- The smallest of some texts. -/
def smallestText : List String → Option String
  | [] => none
  | s :: rest => some (rest.foldl (fun a b => if b < a then b else a) s)

/-- Where a method is declared: the smallest file path of what contains it, or empty. -/
def declaringFile (t : Tables) (containers : HashMap Int (List Int)) (id : Int) : String :=
  let owners := containers.getD id []
  let paths := (t.nodes.filter fun n => owners.contains n.id).filterMap (·.filePath)
  (smallestText paths).getD ""

/-- Why a score cannot be given. -/
inductive ScoreError where
  | methodNotFound (signature : String)
  /-- The row of the method has no signature. -/
  | noSignature
  deriving DecidableEq, Repr

/-- The failure that an error of scoring is reported as. -/
def ScoreError.toFailure : ScoreError → Failure
  | methodNotFound signature => .coded .notFound ("method not found: " ++ signature)
  | noSignature => .ofText ("sql: Scan error on column index 1, name \"signature\": " ++
    "converting NULL to string is unsupported")

/-- The stored methods. -/
def Tables.methods (t : Tables) : List NodeRow :=
  t.nodes.filter (·.kind == NodeKind.method.label)

/-- The assessment of the method with a given key. -/
def Tables.riskScore (t : Tables) (key : String) : Except ScoreError RiskScore :=
  match t.methods.find? (·.key == key) with
  | none => .error (.methodNotFound key)
  | some row =>
    match row.signature with
    | none => .error .noSignature
    | some signature =>
      let callers := sourcesByTarget t .calls
      let direct := directCallers callers row.id
      let total := totalCallers callers row.id
      .ok ⟨row.id, signature, declaringFile t (sourcesByTarget t .contains) row.id, direct, total,
        (RiskLevel.ofCallers direct total).word⟩

/-- A stored method with the number of its direct callers. -/
structure CalledRow where
  row : NodeRow
  callers : Nat

/-- The order of absent texts before all others. -/
def columnLe : Option String → Option String → Bool
  | none, _ => true
  | some _, none => false
  | some a, some b => decide (a ≤ b)

/-- Most called first, then by signature. -/
def CalledRow.le (a b : CalledRow) : Bool :=
  decide (a.callers > b.callers) ||
    (a.callers == b.callers && columnLe a.row.signature b.row.signature)

/-- A stored method next to the source of a call to it, or next to nothing. -/
structure JoinedRow where
  row : NodeRow
  source : Option Int

/-- The rows of a method joined with the calls to it: one for each, or one if there are none. -/
def NodeRow.joined (callers : HashMap Int (List Int)) (row : NodeRow) : List JoinedRow :=
  match callers.getD row.id [] with
  | [] => [⟨row, none⟩]
  | sources => sources.map fun x => ⟨row, some x⟩

/-- A group of rows of one method as a row, with the number of distinct sources. -/
def CalledRow.ofGroup? (rows : List JoinedRow) : Option CalledRow :=
  rows.head?.map fun j => ⟨j.row, (NodeId.setOf (rows.filterMap (·.source))).length⟩

/-- All stored methods, most called first.  Here the callers are not counted method by method: the
methods are joined with the calls, and the rows are grouped by method again. -/
def Tables.byCallers (t : Tables) : List CalledRow :=
  let callers := sourcesByTarget t .calls
  let rows := t.methods.mergeSort fun a b => decide (a.id ≤ b.id)
  let groups := (rows.flatMap (·.joined callers)).splitBy fun a b => a.row.id == b.row.id
  (groups.filterMap CalledRow.ofGroup?).mergeSort CalledRow.le

/-- The methods with most direct callers, at most `limit` of them; a negative limit is none.  Only
direct callers are counted, and they stand for all. -/
def Tables.topRisky (t : Tables) (limit : Int) : Except ScoreError (List RiskScore) :=
  let containers := sourcesByTarget t .contains
  let all := t.byCallers
  let listed := if limit < 0 then all else all.take limit.toNat
  listed.mapM fun c =>
    match c.row.signature with
    | none => .error .noSignature
    | some signature => .ok ⟨c.row.id, signature, declaringFile t containers c.row.id, c.callers,
        c.callers, (RiskLevel.ofDirectCallers c.callers).word⟩

end Ripple.Snapshot
