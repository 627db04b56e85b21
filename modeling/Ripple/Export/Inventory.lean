import Ripple.Display.Tree
import Ripple.Graph.Basic

/-!
# Ripple.Export.Inventory

The inventory of a file: its types in order of line, each with tables of its fields and methods and
with the direct callers and callees of its methods.
-/

namespace Ripple.Export

/-- Edges in order of line; those of one line keep their order. -/
def byLine (edges : List Edge) : List Edge :=
  edges.mergeSort fun a b => decide (a.line ≤ b.line)

/-- A text, or a dash for none. -/
def orDash (s : String) : String := if s = "" then "-" else s

/-- The code element of a node; a number without a node stands for a type without a name. -/
def symbolOf (g : Graph) (id : NodeId) : Symbol :=
  ((g.node? id).map (·.symbol)).getD (.type "" "")

/-- The declared types of a field. -/
def fieldTypes : Symbol → List String
  | .field _ types => types
  | _ => []

/-- The signature of a method. -/
def signatureOf : Symbol → String
  | .method signature _ _ => signature
  | _ => ""

/-- The return type of a method. -/
def returnTypeOf : Symbol → String
  | .method _ ret _ => ret
  | _ => ""

/-- The row of a field that is declared by an edge. -/
def fieldRow (g : Graph) (e : Edge) : String :=
  let f := symbolOf g e.target
  let types := orDash (Text.join ", " (fieldTypes f))
  let readers := (g.predecessors e.target .reads).length
  let writers := (g.predecessors e.target .writes).length
  s!"| `{f.name}` | {types} | {e.line} | {readers} | {writers} |\n"

/-- The table of the fields of a type. -/
def fieldTable (g : Graph) (fields : List Edge) : String :=
  if fields.isEmpty then ""
  else
    "| Field | Type | Line | Readers | Writers |\n" ++
      "|-------|------|------|---------|---------|\n" ++ Display.concat (fieldRow g) fields ++ "\n"

/-- The row of a method that is declared by an edge. -/
def methodRow (g : Graph) (e : Edge) : String :=
  let m := symbolOf g e.target
  let callers := (g.predecessors e.target .calls).length
  let callees := (g.successors e.target .calls).length
  s!"| `{signatureOf m}` | {orDash (returnTypeOf m)} | {e.line} | {callers} | {callees} |\n"

/-- The table of the methods of a type. -/
def methodTable (g : Graph) (methods : List Edge) : String :=
  if methods.isEmpty then ""
  else
    "| Method | Returns | Line | Called by | Calls |\n" ++
      "|--------|---------|------|-----------|-------|\n" ++ Display.concat (methodRow g) methods ++
      "\n"

/-- The signatures of some methods in order. -/
def signatures (g : Graph) (ids : List NodeId) : String :=
  let names := ids.map fun id => "`" ++ signatureOf (symbolOf g id) ++ "`"
  Text.join ", " (names.mergeSort fun a b => decide (a ≤ b))

/-- The direct callers and callees of a method, unless it has neither. -/
def callChain (g : Graph) (id : NodeId) : String :=
  let callers := g.predecessors id .calls
  let callees := g.successors id .calls
  if callers.isEmpty && callees.isEmpty then ""
  else
    s!"- `{signatureOf (symbolOf g id)}`\n" ++
      (if callers.isEmpty then "" else s!"  - **Called by**: {signatures g callers}\n") ++
      (if callees.isEmpty then "" else s!"  - **Calls**: {signatures g callees}\n") ++ "\n"

/-- A type that is declared by an edge. -/
def typeSection (g : Graph) (callChains : Bool) (declaration : Edge) : String :=
  let fields := byLine (g.outgoing declaration.target .hasField)
  let methods := byLine (g.outgoing declaration.target .contains)
  s!"#### {(symbolOf g declaration.target).name} (line {declaration.line})\n\n" ++
    fieldTable g fields ++ methodTable g methods ++
    (if callChains then Display.concat (fun e => callChain g e.target) methods else "")

/-- Keeps the first edge to each target. -/
def firstDeclarations (edges : List Edge) : List Edge :=
  go ∅ edges
where
  go (seen : Std.HashSet NodeId) : List Edge → List Edge
    | [] => []
    | e :: rest =>
      if seen.contains e.target then go seen rest else e :: go (seen.insert e.target) rest

/-- A file with its types, each at the smallest line of its declarations there. -/
def fileSection (g : Graph) (callChains : Bool) (file : Node) : String :=
  s!"### 📄 {Display.shortPath file.key}\n\n`{file.key}`\n\n" ++
    Display.concat (typeSection g callChains)
      (firstDeclarations (byLine (g.outgoing file.id .contains)))

end Ripple.Export
