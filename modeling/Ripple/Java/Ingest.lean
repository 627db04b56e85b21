import Ripple.Graph.Builder
import Ripple.Java.Extract
import Ripple.Java.Grammar.Declaration
import Ripple.Path

/-!
# Ripple.Java.Ingest

Java facts as nodes and edges.  All declarations go in before any body, so that a call finds methods
declared later or in another file.  A call goes to every declared method of its name and number of
arguments, an access to the field of its name if any type declares one.
-/

namespace Ripple.Java

/-- The facts of one source file. -/
def FileFacts.ofSource (path source : String) : FileFacts := ⟨path, unitFacts (parse source)⟩

/-- The methods kept so far, the last one first, and their signatures. -/
abbrev Kept := Std.HashSet String × List MethodFacts

/-- Keeps a method unless its signature is known. -/
def Kept.add : Kept → MethodFacts → Kept
  | (seen, kept), m =>
    let s := m.signature
    if seen.contains s then (seen, kept) else (seen.insert s, m :: kept)

/-- The declared methods, each signature once, in order of declaration. -/
def declaredMethods (files : List FileFacts) : List MethodFacts :=
  let methods := files.flatMap fun f => f.classes.flatMap (·.methods)
  (methods.foldl Kept.add (∅, [])).2.reverse

/-- What calls and accesses are resolved against. -/
structure Declared where
  methods : List MethodFacts
  fields : Std.HashSet String

/-- What some files declare. -/
def Declared.ofFiles (files : List FileFacts) : Declared where
  methods := declaredMethods files
  fields := .ofList (files.flatMap fun f => f.classes.flatMap fun c => c.fields.map (·.name))

/-- The signatures of the methods that a call may go to. -/
def Declared.resolve (d : Declared) (c : Call) : List String :=
  (d.methods.filter fun m => m.name == c.name && (m.params.length : Int) == c.args).map
    (·.signature)

/-! ## declarations -/

/-- Declares a field of a type. -/
def FieldFacts.ingest (f : FieldFacts) (type : NodeId) : Ingest Unit := do
  let id ← Builder.upsertField f.name
  Builder.setFieldType id f.type
  Builder.declareField type id f.line

/-- Declares a method of a type. -/
def MethodFacts.ingest (m : MethodFacts) (type : NodeId) : Ingest (NodeId × MethodFacts) := do
  let id ← Builder.upsertMethod m.signature
  Builder.setMethodTypes id m.returnType m.params
  Builder.declareMethod type id m.line
  return (id, m)

/-- Declares a type with its members. -/
def ClassFacts.ingest (c : ClassFacts) (file : NodeId) (path : String) :
    Ingest (List (NodeId × MethodFacts)) := do
  let type ← Builder.upsertType c.name path
  Builder.declareType file type c.line
  c.fields.forM (·.ingest type)
  c.methods.mapM (·.ingest type)

/-- Declares a file with its types. -/
def FileFacts.ingest (f : FileFacts) : Ingest (List (NodeId × MethodFacts)) := do
  let file ← Builder.upsertFile (Path.base f.path) f.path
  return (← f.classes.mapM (·.ingest file f.path)).flatten

/-! ## bodies -/

/-- Records what a method body does. -/
def Declared.ingestBody (d : Declared) (caller : NodeId) (m : MethodFacts) : Ingest Unit := do
  m.calls.forM fun c => (d.resolve c).forM fun s => do
    Builder.recordCall caller (← Builder.upsertMethod s) c.line
  (m.reads.filter fun a => d.fields.contains a.name).forM fun a => do
    Builder.recordRead caller (← Builder.upsertField a.name) a.line
  (m.writes.filter fun a => d.fields.contains a.name).forM fun a => do
    Builder.recordWrite caller (← Builder.upsertField a.name) a.line

/-- Ingests the facts of some files. -/
def ingestFiles (files : List FileFacts) : Ingest Unit := do
  let bodies := (← files.mapM (·.ingest)).flatten
  let declared := Declared.ofFiles files
  bodies.forM fun (id, m) => declared.ingestBody id m

end Ripple.Java
