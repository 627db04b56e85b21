import Ripple.Display.Tree
import Ripple.Impact.Report
import Ripple.Json.Basic

/-!
# Ripple.Impact.Render

Reports and method lists as texts: a summary line, a drawn tree, Markdown and JSON.
-/

namespace Ripple

open Display

/-- How a target is named in headings. -/
def Target.label (t : Target) : String :=
  if t.kind = "field" then t.className ++ "." ++ t.name
  else if t.kind = "method" then t.className ++ "." ++ t.signature
  else t.name

/-- The line that says a cap was hit. -/
def truncationNote (truncated : Bool) : String :=
  if truncated then "⚠️  result truncated at the configured node cap\n" else ""

/-! ## reports -/

namespace Report

/-- The target with the numbers of files, types and members. -/
def summary (r : Report) : String :=
  let types := r.files.flatMap (·.types)
  let members := types.flatMap (·.members)
  s!"Target: {r.target.label}, Files: {r.files.length}, Types: {types.length}, " ++
    s!"Members: {members.length}"

/-- The calls and accesses of a method, one on a line. -/
def refLines (indentation : String) (m : MemberEntry) : String :=
  concat (fun c : CallRef => s!"{indentation}    calls {c.signature} :{c.line}\n") m.calls ++
    concat (fun f : FieldRef => s!"{indentation}    reads {f.name} :{f.line}\n") m.reads ++
    concat (fun f : FieldRef => s!"{indentation}    writes {f.name} :{f.line}\n") m.writes

/-- What is drawn below a type. -/
def typeItems (t : TypeEntry) : List (FieldRef ⊕ MemberEntry) :=
  t.fields.map .inl ++ t.members.map .inr

/-- A type and what is below it. -/
def typeLines (indentation : String) (t : TypeEntry) (last : Bool) : String :=
  let below := indentation ++ indent last
  s!"{indentation}{branch last} {t.name} :{t.line}\n" ++
    concat (fun (item, last) =>
      match item with
      | .inl f => s!"{below}{branch last} field {f.name} :{f.line}\n"
      | .inr m =>
        s!"{below}{branch last} {m.signature} :{m.line}\n" ++ refLines (below ++ indent last) m)
      (withLast (typeItems t))

/-- A file and what is below it. -/
def fileLines (f : FileEntry) (last : Bool) : String :=
  s!"{branch last} {shortPath f.path}\n" ++
    concat (fun (t, lastType) => typeLines (indent last) t lastType) (withLast f.types)

/-- The report as a tree of files, types and members. -/
def tree (r : Report) : String :=
  s!"📍 {r.target.kind} impact: {r.target.label}\n" ++ truncationNote r.truncated ++ "\n" ++
    concat (fun (f, last) => fileLines f last) (withLast r.files)

/-- References in a table cell; an empty cell holds a dash. -/
def cell (texts : List String) : String :=
  if texts.isEmpty then "-" else Text.join ", " texts

/-- The table of affected fields. -/
def fieldTable (fields : List FieldRef) : String :=
  if fields.isEmpty then ""
  else
    "| Field | Line |\n|-------|------|\n" ++
      concat (fun f : FieldRef => s!"| {f.name} | {f.line} |\n") fields ++ "\n"

/-- The row of an affected method. -/
def memberRow (m : MemberEntry) : String :=
  let calls := cell (m.calls.map fun c => s!"`{c.signature}`:{c.line}")
  let reads := cell (m.reads.map fun f => s!"{f.name}:{f.line}")
  let writes := cell (m.writes.map fun f => s!"{f.name}:{f.line}")
  s!"| `{m.signature}` | {m.line} | {calls} | {reads} | {writes} |\n"

/-- The table of affected methods. -/
def memberTable (members : List MemberEntry) : String :=
  if members.isEmpty then ""
  else
    "| Method | Line | Calls | Reads | Writes |\n|--------|------|-------|-------|--------|\n" ++
      concat memberRow members ++ "\n"

/-- The section of a type. -/
def typeSection (t : TypeEntry) : String :=
  s!"#### {t.name} (line {t.line})\n\n" ++ fieldTable t.fields ++ memberTable t.members ++
    if t.fields.isEmpty && t.members.isEmpty then "_No impacted members_\n\n" else ""

/-- The section of a file. -/
def fileSection (f : FileEntry) : String :=
  s!"### {f.name}\n\n**Path:** `{f.path}`\n\n" ++ concat typeSection f.types

/-- The report as Markdown. -/
def markdown (r : Report) : String :=
  s!"## Change impact: {r.target.label}\n\n" ++
    (if r.truncated then "> Result truncated at the configured node cap.\n\n" else "") ++
    concat fileSection r.files

end Report

/-! ## method lists -/

namespace MethodList

/-- The list with a connector in front of each method. -/
def tree (l : MethodList) : String :=
  s!"Methods ({l.methods.length})\n" ++
    concat (fun (m, last) =>
      let path := if m.filePath = "" then "(unknown file)" else m.filePath
      s!"{branch last} {m.signature}  {shortPath path}\n") (withLast l.methods) ++
    truncationNote l.truncated

/-- The list as a Markdown table. -/
def markdown (l : MethodList) : String :=
  "| Method | Signature | File |\n|--------|-----------|------|\n" ++
    concat (fun m : MethodEntry => s!"| {m.name} | `{m.signature}` | {m.filePath} |\n") l.methods

end MethodList

/-! ## JSON -/

/-- A list, or `null` for one that was never made. -/
def Json.list (f : α → Json) : Option (List α) → Json
  | none => .null
  | some items => .array (items.map f)

/-- A member that is left out unless it is true. -/
def Json.flag (name : String) (b : Bool) : List (String × Json) :=
  if b then [(name, .bool true)] else []

/-- A call as JSON. -/
def CallRef.toJson (c : CallRef) : Json :=
  .object [("name", .string c.name), ("signature", .string c.signature),
    ("lineNumber", .int c.line)]

/-- A field reference as JSON. -/
def FieldRef.toJson (f : FieldRef) : Json :=
  .object [("name", .string f.name), ("lineNumber", .int f.line)]

/-- A method of a report as JSON. -/
def MemberEntry.toJson (m : MemberEntry) : Json :=
  .object [("name", .string m.name), ("signature", .string m.signature),
    ("lineNumber", .int m.line), ("calledMethods", .list CallRef.toJson (some m.calls)),
    ("readFields", .list FieldRef.toJson (some m.reads)),
    ("writtenFields", .list FieldRef.toJson (some m.writes))]

/-- A type of a report as JSON. -/
def TypeEntry.toJson (t : TypeEntry) : Json :=
  .object [("name", .string t.name), ("lineNumber", .int t.line),
    ("fields", .list FieldRef.toJson (some t.fields)),
    ("members", .list MemberEntry.toJson (some t.members))]

/-- A file of a report as JSON. -/
def FileEntry.toJson (f : FileEntry) : Json :=
  .object [("name", .string f.name), ("absolutePath", .string f.path),
    ("types", .list TypeEntry.toJson (some f.types))]

/-- A target as JSON. -/
def Target.toJson (t : Target) : Json :=
  .object ([("kind", .string t.kind), ("name", .string t.name),
    ("className", .string t.className)] ++
    Json.nonempty "signature" t.signature)

namespace Report

/-- A report document; `files` is absent in one that was never filled in. -/
def document (target : Target) (files : Option (List FileEntry)) (truncated : Bool) : Json :=
  .object ([("target", target.toJson), ("files", .list FileEntry.toJson files)] ++
    Json.flag "truncated" truncated)

/-- A report as JSON. -/
def toJson (r : Report) : Json := document r.target (some r.files) r.truncated

end Report

namespace MethodEntry

/-- A listed method as JSON. -/
def toJson (m : MethodEntry) : Json :=
  .object [("name", .string m.name), ("signature", .string m.signature),
    ("filePath", .string m.filePath)]

end MethodEntry

namespace MethodList

/-- A method list document; `methods` is absent in one that was never filled in. -/
def document (methods : Option (List MethodEntry)) (truncated : Bool) : Json :=
  .object ([("methods", .list MethodEntry.toJson methods)] ++ Json.flag "truncated" truncated)

/-- A method list as JSON. -/
def toJson (l : MethodList) : Json := document (some l.methods) l.truncated

end MethodList

end Ripple
