import Ripple.Snapshot.Callers
import Ripple.Snapshot.Load
import Ripple.Time.Stamp

/-!
# Ripple.Snapshot.Database

A database that holds one snapshot.  It is open or closed; a closed one keeps its rows and refuses
every operation, and so does a call that was cancelled before it began.
-/

namespace Ripple.Snapshot

/-- Stored rows behind a connection. -/
structure Database where
  tables : Tables
  isOpen : Bool

/-- What is known about the stored snapshot. -/
structure Stats where
  nodes : Nat
  edges : Nat
  savedAt : Option Timestamp
  deriving DecidableEq, Repr

namespace Database

/-- A new database, open. -/
def new : Database := ⟨.empty, true⟩

/-- Closes the connection. -/
def close (db : Database) : Database := { db with isOpen := false }

/-- Opens the connection again. -/
def reopen (db : Database) : Database := { db with isOpen := true }

/-- The rows, if they can be reached. -/
def access (db : Database) (cancelled : Bool) : Except Failure Tables :=
  if !db.isOpen then .error (.ofText "sql: database is closed")
  else if cancelled then .error (.root .cancelled)
  else .ok db.tables

/-- Replaces the snapshot by a graph. -/
def save (db : Database) (cancelled : Bool) (g : Graph) (now : Timestamp) :
    Except Failure Database := do
  let _ ← db.access cancelled
  return { db with tables := .ofGraph g now }

/-- The stored graph, frozen. -/
def load (db : Database) (cancelled : Bool) : Except Failure Builder := do
  let t ← db.access cancelled
  t.load.mapError LoadError.toFailure

/-- Counts of rows, and the time of the last write. -/
def stats (db : Database) : Except Failure Stats := do
  let t ← db.access false
  match t.savedAt with
  | none => return ⟨t.nodes.length, t.edges.length, none⟩
  | some text =>
    match Stamp.parse text with
    | .ok time => return ⟨t.nodes.length, t.edges.length, some time⟩
    | .error p => throw (.ofText (p.message text))

/-- How many methods call the node with a given number. -/
def totalCallers (db : Database) (id : Int) : Except Failure Nat := do
  let t ← db.access false
  return Snapshot.totalCallers (sourcesByTarget t .calls) id

/-- The assessment of a method. -/
def riskScore (db : Database) (key : String) : Except Failure RiskScore := do
  let t ← db.access false
  (t.riskScore key).mapError ScoreError.toFailure

/-- The methods with most direct callers. -/
def topRisky (db : Database) (limit : Int) : Except Failure (List RiskScore) := do
  let t ← db.access false
  (t.topRisky limit).mapError ScoreError.toFailure

end Database

end Ripple.Snapshot
