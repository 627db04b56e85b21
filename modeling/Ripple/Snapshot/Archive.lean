import Ripple.Decimal.Reader
import Ripple.Json.Reader
import Ripple.Snapshot.Tables

/-!
# Ripple.Snapshot.Archive

Tables as a JSON document, which is how a database is kept in a file: each row is an array of its
columns, and an absent column is null.
-/

namespace Ripple.Snapshot

/-- A column that may be absent. -/
def columnJson : Option String → Json
  | some s => .string s
  | none => .null

/-- A column that was written. -/
def column? : Json → Option (Option String)
  | .string s => some (some s)
  | .null => some none
  | _ => none

namespace NodeRow

/-- The row as an array. -/
def toJson (r : NodeRow) : Json :=
  .array ([.int r.id, .string r.kind, .string r.key, .string r.name] ++
    [r.absolutePath, r.filePath, r.fieldTypes, r.signature, r.returnType, r.parameterTypes].map
      columnJson)

/-- The row of an array. -/
def ofJson? : Json → Option NodeRow
  | .array [.number id, .string kind, .string key, .string name, a, b, c, d, e, f] => do
    return ⟨← id.toInt?, kind, key, name, ← column? a, ← column? b, ← column? c, ← column? d,
      ← column? e, ← column? f⟩
  | _ => none

end NodeRow

namespace EdgeRow

/-- The row as an array. -/
def toJson (r : EdgeRow) : Json :=
  .array [.int r.id, .string r.kind, .int r.source, .int r.target, .int r.line, .int r.createdAt,
    .number (Decimal.literal r.confidence)]

/-- The row of an array. -/
def ofJson? : Json → Option EdgeRow
  | .array [.number id, .string kind, .number source, .number target, .number line, .number time,
      .number confidence] => do
    return ⟨← id.toInt?, kind, ← source.toInt?, ← target.toInt?, ← line.toInt?, ← time.toInt?,
      ← Decimal.parse? confidence⟩
  | _ => none

end EdgeRow

namespace Tables

/-- The tables as a document. -/
def toJson (t : Tables) : Json :=
  .object [("nodes", .array (t.nodes.map (·.toJson))), ("edges", .array (t.edges.map (·.toJson))),
    ("savedAt", columnJson t.savedAt)]

/-- The tables of a document. -/
def ofJson? : Json → Option Tables
  | .object [("nodes", .array nodes), ("edges", .array edges), ("savedAt", savedAt)] => do
    return ⟨← nodes.mapM NodeRow.ofJson?, ← edges.mapM EdgeRow.ofJson?, ← column? savedAt⟩
  | _ => none

end Tables

end Ripple.Snapshot
