import Ripple.Graph.Basic
import Ripple.Impact.Report

/-!
# Ripple.Impact.Assembly

From sets of nodes to the entries of a report.  A type is listed under a file when the file contains
it and it declares an affected field or method, or is a target; a file is listed when one of its
types is.  All lists are sorted and hold nothing twice.
-/

namespace Ripple

open Std

/-- What a report is assembled from. -/
structure Selection where
  /-- The files to list. -/
  files : List NodeId
  /-- The affected methods. -/
  chain : HashSet NodeId
  /-- The affected fields. -/
  fields : HashSet NodeId
  /-- The types that are listed even when nothing of them is affected. -/
  targets : List NodeId

/-- The order of lines, and of texts on the same line. -/
def lineThenText (a : Int × String) (b : Int × String) : Bool :=
  a.1 < b.1 || (a.1 == b.1 && decide (a.2 ≤ b.2))

namespace Assembly

/-- The name of a node. -/
def nameOf (g : Graph) (id : NodeId) : String :=
  ((g.node? id).map (·.name)).getD ""

/-- The key of a node. -/
def keyOf (g : Graph) (id : NodeId) : String :=
  ((g.node? id).map (·.key)).getD ""

/-- The ends of some edges in a set of fields, with their lines. -/
def fieldRefs (g : Graph) (fields : HashSet NodeId) (edges : List Edge) : List FieldRef :=
  let refs := (edges.filter fun e => fields.contains e.target).map fun e =>
    FieldRef.mk (nameOf g e.target) e.line
  refs.eraseDups.mergeSort fun a b => lineThenText (a.line, a.name) (b.line, b.name)

/-- The calls of a method that stay within the affected methods. -/
def callRefs (g : Graph) (chain : HashSet NodeId) (method : NodeId) : List CallRef :=
  let calls := (g.outgoing method .calls).filter fun e => chain.contains e.target
  let refs := calls.map fun e => CallRef.mk (nameOf g e.target) (keyOf g e.target) e.line
  refs.eraseDups.mergeSort fun a b => lineThenText (a.line, a.signature) (b.line, b.signature)

/-- An affected method, declared at a line. -/
def member (g : Graph) (sel : Selection) (method : NodeId) (line : Int) : MemberEntry where
  name := nameOf g method
  signature := keyOf g method
  line := line
  calls := callRefs g sel.chain method
  reads := fieldRefs g sel.fields (g.outgoing method .reads)
  writes := fieldRefs g sel.fields (g.outgoing method .writes)

/-- The smallest of some lines. -/
def smallest (first : Int) (rest : List Int) : Int := rest.foldl min first

/-- The affected methods of a type, each at the smallest line of its declarations there. -/
def members (g : Graph) (sel : Selection) (type : NodeId) : List MemberEntry :=
  let declarations := (g.outgoing type .contains).filter fun e => sel.chain.contains e.target
  let entries := (NodeId.setOf (declarations.map (·.target))).filterMap fun method =>
    match (declarations.filter (·.target == method)).map (·.line) with
    | [] => none
    | line :: lines => some (member g sel method (smallest line lines))
  entries.mergeSort fun a b => lineThenText (a.line, a.signature) (b.line, b.signature)

/-- A type declared at a line, if it is to be listed. -/
def typeEntry? (g : Graph) (sel : Selection) (type : NodeId) (line : Int) : Option TypeEntry :=
  let entry : TypeEntry :=
    ⟨nameOf g type, line, fieldRefs g sel.fields (g.outgoing type .hasField), members g sel type⟩
  if entry.fields.isEmpty && entry.members.isEmpty && !sel.targets.contains type then none
  else some entry

/-- The first of the edges to each target. -/
def firstPerTarget (edges : List Edge) : List (NodeId × Int) :=
  let rec go (seen : HashSet NodeId) : List Edge → List (NodeId × Int)
    | [] => []
    | e :: rest =>
      if seen.contains e.target then go seen rest
      else (e.target, e.line) :: go (seen.insert e.target) rest
  go ∅ edges

/-- A file, if one of its types is listed. -/
def fileEntry? (g : Graph) (sel : Selection) (file : NodeId) : Option FileEntry :=
  let declared := firstPerTarget (g.outgoing file .contains)
  let types := declared.filterMap fun (type, line) => typeEntry? g sel type line
  if types.isEmpty then none
  else
    let types := types.mergeSort fun a b => lineThenText (a.line, a.name) (b.line, b.name)
    some ⟨nameOf g file, keyOf g file, types⟩

end Assembly

/-- The entries of a report. -/
def assemble (g : Graph) (sel : Selection) : List FileEntry :=
  (sel.files.filterMap (Assembly.fileEntry? g sel)).mergeSort fun a b => decide (a.path ≤ b.path)

end Ripple
