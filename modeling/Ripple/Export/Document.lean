import Ripple.Export.Diagram
import Ripple.Export.Inventory
import Ripple.Risk
import Ripple.Time.Date

/-!
# Ripple.Export.Document

The whole graph as a document: counts, diagram, the inventory of every file, and the table of the
methods whose change touches most callers.
-/

namespace Ripple.Export

/-- What a document shows. -/
structure Options where
  diagram : Bool := true
  callChains : Bool := true
  projectName : String := "Project"
  /-- How many methods the table of impact lists; all of them unless positive. -/
  impactRows : Int := 20
  deriving DecidableEq, Repr

/-- A method with the number of its direct callers and callees. -/
structure CallCount where
  id : NodeId
  signature : String
  callers : Nat
  callees : Nat
  deriving DecidableEq, Repr

/-- The order of the table: most called first, then by signature. -/
def CallCount.le (a b : CallCount) : Bool :=
  decide (a.callers > b.callers) ||
    (a.callers == b.callers && decide (a.signature ≤ b.signature))

/-- All methods that are called, in the order of the table. -/
def callCounts (g : Graph) : List CallCount :=
  let all := (g.nodesOfKind .method).map fun m => CallCount.mk m.id (signatureOf m.symbol)
    (g.predecessors m.id .calls).length (g.successors m.id .calls).length
  (all.filter (·.callers > 0)).mergeSort CallCount.le

/-- The methods that the table lists. -/
def impactRows (g : Graph) (limit : Int) : List CallCount :=
  if limit > 0 then (callCounts g).take limit.toNat else callCounts g

/-- The row of a method. -/
def impactRow (g : Graph) (c : CallCount) : String :=
  let level := (RiskLevel.ofDirectCallers c.callers).word
  let types := orDash (Text.join ", " (typeNames g c.id))
  s!"| `{c.signature}` | {types} | {c.callers} | {c.callees} | {RiskLevel.icon level} {level} |\n"

/-- The table of impact, unless nothing is called. -/
def impactTable (g : Graph) (limit : Int) : String :=
  let rows := impactRows g limit
  if rows.isEmpty then ""
  else
    "---\n\n## Change impact quick reference\n\n" ++
      "| Method | Declared in | Called by | Calls | Risk |\n" ++
      "|--------|-------------|-----------|-------|------|\n" ++
      Display.concat (impactRow g) rows ++ "\n"

/-- The title and the counts, with the time of writing. -/
def header (g : Graph) (name generated : String) : String :=
  s!"# {name} reference graph\n\n> Generated: {generated}\n> Files: {g.countOf .file} | " ++
    s!"Types: {g.countOf .type} | Fields: {g.countOf .field} | Methods: {g.countOf .method} | " ++
    s!"Edges: {g.edgeCount}\n\n"

/-- The document; `generated` is the text of the time of writing. -/
def document (g : Graph) (opts : Options) (generated : String) : String :=
  let files := (g.nodesOfKind .file).mergeSort fun a b => decide (a.key ≤ b.key)
  header g opts.projectName generated ++
    (if opts.diagram && !files.isEmpty then diagram g else "") ++ "---\n\n## Files\n\n" ++
    Display.concat (fileSection g opts.callChains) files ++ impactTable g opts.impactRows

end Ripple.Export
