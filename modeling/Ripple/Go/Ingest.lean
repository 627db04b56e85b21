import Ripple.Go.Body
import Ripple.Go.Check.Package
import Ripple.Go.ExprText
import Ripple.Graph.Builder

/-!
# Ripple.Go.Ingest

The packages of a Go module as nodes and edges.  A declared type is a type with its fields and
methods; functions belong to a type named after their package.
-/

namespace Ripple.Go

/-- A file that is being ingested. -/
structure FileContext where
  world : World
  resolution : Resolution
  package : PackageRef
  file : SourceFile
  /-- The path under which the file is known. -/
  path : String
  id : NodeId

/-- The declaration of a name in the file, with what it stands for.  A second declaration of a name
in a package declares nothing. -/
def FileContext.declared? (x : FileContext) (isMember : Bool) (id : Ident) : Option Object := do
  let scope ← x.world.packages[x.package.path]?
  let isHere (d : Declaration) : Bool :=
    d.file.path == x.file.path && d.body.name.index == id.index
  let n ← scope.declarations.findIdx? isHere
  let known := isMember || id.name == "_" || scope.names[id.name]? == some n
  if known then x.world.objects[DeclRef.mk x.package.path n]? else none

/-! ## types -/

/-- Declares a field of a type. -/
def ingestField (type : NodeId) (name typeText : String) (line : Nat) : Ingest Unit := do
  let id ← Builder.upsertField name
  Builder.setFieldType id typeText
  Builder.declareField type id line

/-- The name of an embedded field. -/
def embeddedName : Expr → String
  | .star x | .index x _ => embeddedName x
  | .selector _ sel => sel.name
  | .ident id => id.name
  | _ => ""

/-- Declares the fields of a struct. -/
def ingestStruct (type : NodeId) (fs : List Field) : Ingest Unit :=
  fs.forM fun
    | .mk [] t _ line =>
      if (embeddedName t).isEmpty then pure () else ingestField type (embeddedName t) t.text line
    | .mk names t _ _ => names.forM fun id => ingestField type id.name t.text id.line

/-- Declares a method or function of a type. -/
def ingestMethod (type : NodeId) (home name : String) (t : Ty) (line : Nat) : Ingest NodeId := do
  let id ← Builder.upsertMethod (declaredSignature home name t)
  Builder.setMethodTypes id (t.resultText home) (t.parameterTypes home)
  Builder.declareMethod type id line
  return id

/-- Declares the methods of an interface, in their order. -/
def ingestInterface (x : FileContext) (type : NodeId) (t : Ty) : Ingest Unit :=
  match x.world.underlying t with
  | .interface _ names types _ =>
    (names.zip types).forM fun (m, t) =>
      discard (ingestMethod type x.package.path m.name t m.line)
  | _ => pure ()

/-- Declares a type with its members.  An alias or a type that leads to itself is none. -/
def ingestType (x : FileContext) (name : Ident) (type : Expr) : Ingest Unit := do
  match x.declared? false name with
  | some (.type (.named ref args)) =>
    let id ← Builder.upsertType name.name x.path
    Builder.declareType x.id id name.line
    match type with
    | .struct fs => ingestStruct id fs
    | .interface _ => ingestInterface x id (.named ref args)
    | _ => pure ()
  | _ => pure ()

/-! ## functions -/

/-- Records what a function body does. -/
def ingestEvents (caller : NodeId) (es : List Event) : Ingest Unit :=
  es.forM fun
    | .call s line => do Builder.recordCall caller (← Builder.upsertMethod s) line
    | .read f line => do Builder.recordRead caller (← Builder.upsertField f) line
    | .write f line => do Builder.recordWrite caller (← Builder.upsertField f) line

/-- The name of the type to which a receiver belongs; a pointer to it counts too. -/
def receiverTypeName : Ty → Option String
  | .pointer (.named ref _) | .named ref _ => some ref.name
  | _ => none

/-- The type that declares a function: that of its receiver, or one named after the package.  A
method without a proper receiver has none. -/
def ingestOwner (x : FileContext) (receiver : Option Receiver) : Ingest (Option NodeId) := do
  match receiver with
  | some r =>
    match receiverTypeName r.type with
    | some name => return some (← Builder.upsertType name "")
    | none => return none
  | none =>
    let id ← Builder.upsertType x.package.name x.path
    Builder.declareType x.id id x.file.line
    return some id

/-- Declares a function and records what it does. -/
def ingestFunc (x : FileContext) (f : FuncDecl) : Ingest Unit := do
  let isMember := f.receiver.isSome || f.name.name == "init"
  match x.declared? isMember f.name with
  | some (.func t _ receiver) =>
    if let some type ← ingestOwner x receiver then
      let id ← ingestMethod type x.package.path f.name.name t f.name.line
      if let some body := f.body then
        ingestEvents id (Stmt.eventsAll x.resolution body)
  | _ => pure ()

/-! ## files -/

/-- Ingests a declaration. -/
def ingestDecl (x : FileContext) : Decl → Ingest Unit
  | .specs ss => ss.forM fun
    | .type name _ _ type => ingestType x name type
    | _ => pure ()
  | .func f => ingestFunc x f

/-- Ingests a file of a package, seen from the working directory.  One that is reported as a test is
left out; one that names another package only counts as a file. -/
def ingestFile (found : Progress) (cwd : String) (p : SourcePackage) (f : SourceFile) :
    Ingest Unit := do
  if Text.hasSuffix f.name "_test.go" then return
  let path := Path.absolute cwd f.name
  let id ← Builder.upsertFile (Path.base path) path
  if f.package.name == p.ref.name then
    let resolution := (found.files[f.path]?).getD .empty
    f.decls.forM (ingestDecl ⟨found.world, resolution, p.ref, f, path, id⟩)

/-- Ingests the packages of a module. -/
def ingestModule (cwd : String) (m : Module) : Ingest Unit :=
  let found := m.check
  m.packages.forM fun p => if p.own then p.files.forM (ingestFile found cwd p) else pure ()

end Ripple.Go
