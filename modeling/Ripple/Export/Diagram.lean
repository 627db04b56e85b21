import Ripple.Display.Tree
import Ripple.Graph.Basic

/-!
# Ripple.Export.Diagram

The diagram of type dependencies: an arrow goes from a type to another when a method that the first
declares calls a method that the second declares.
-/

namespace Ripple.Export

/-- An arrow between two types, by name. -/
structure Arrow where
  source : String
  target : String
  deriving DecidableEq, Hashable, Repr

/-- The order of arrows: by source, then by target. -/
def Arrow.le (a b : Arrow) : Bool :=
  decide (a.source < b.source) || (a.source == b.source && decide (a.target ≤ b.target))

/-- The names of the types that declare a member. -/
def typeNames (g : Graph) (id : NodeId) : List String :=
  (g.declaringTypes id).filterMap fun t => (g.node? t).map (·.name)

/-- The arrows that one call gives rise to. -/
def arrowsOfCall (g : Graph) (caller callee : NodeId) : List Arrow :=
  (typeNames g caller).flatMap fun source =>
    ((typeNames g callee).filter (source != ·)).map fun target => ⟨source, target⟩

/-- Keeps the first of equal arrows. -/
def distinctArrows (arrows : List Arrow) : List Arrow :=
  go ∅ arrows
where
  go (seen : Std.HashSet Arrow) : List Arrow → List Arrow
    | [] => []
    | a :: rest => if seen.contains a then go seen rest else a :: go (seen.insert a) rest

/-- All arrows of a graph, each once and in order. -/
def arrows (g : Graph) : List Arrow :=
  let calls := g.edges.toList.filter (·.kind == .calls)
  (distinctArrows (calls.flatMap fun e => arrowsOfCall g e.source e.target)).mergeSort Arrow.le

/-- A type name as an identifier of the diagram: brackets and stars are dropped, and what divides
the parts of a name becomes an underscore. -/
def diagramId (name : String) : String :=
  let one (c : Char) : List Char :=
    if c == '(' || c == ')' || c == '*' then []
    else if c == '.' || c == '$' || c == '<' || c == '>' || c == ' ' then ['_']
    else [c]
  "t_" ++ String.ofList (name.toList.flatMap one)

/-- The names of all types of a graph, in order. -/
def typeList (g : Graph) : List String :=
  ((g.nodesOfKind .type).map (·.name)).mergeSort fun a b => decide (a ≤ b)

/-- The diagram, with all types and arrows in order. -/
def diagram (g : Graph) : String :=
  "## Type dependencies\n\n```mermaid\nflowchart LR\n" ++
    Display.concat (fun n => s!"    {diagramId n}[{n}]\n") (typeList g) ++
    Display.concat (fun a => s!"    {diagramId a.source} --> {diagramId a.target}\n") (arrows g) ++
    "```\n\n"

end Ripple.Export
