import Ripple.Go.Check.Declare
import Ripple.Go.Module

/-!
# Ripple.Go.Check.Package

The packages of a module, each after those that it imports.
-/

namespace Ripple.Go

/-! ## imports -/

/-- The last part of an import path. -/
def lastPart (path : String) : String := Text.afterLast '/' path

/-- The packages in the order in which they can be checked. -/
structure ImportOrder where
  sorted : List SourcePackage
  /-- Imports that would close a circle. -/
  closing : List (String × String)

/-- Adds a package after those that it imports; `path` are the packages on the way to it. -/
def ImportOrder.add (find? : String → Option SourcePackage) :
    Nat → List String → ImportOrder → SourcePackage → ImportOrder
  | 0, _, o, _ => o
  | fuel + 1, path, o, p =>
    if o.sorted.any (·.ref.path == p.ref.path) then o
    else
      let path := p.ref.path :: path
      let targets := (p.files.flatMap (·.imports)).map (·.path)
      let o := (targets.mergeSort (· ≤ ·)).foldl (fun o target =>
        match find? target with
        | none => o
        | some q =>
          if path.contains target then { o with closing := (p.ref.path, target) :: o.closing }
          else add find? fuel path o q) o
      { o with sorted := o.sorted ++ [p] }

/-- The packages that belong to a module, with those that they import. -/
def ImportOrder.ofPackages (ps : List SourcePackage) : ImportOrder :=
  let find? (path : String) : Option SourcePackage := ps.find? (·.ref.path == path)
  (ps.filter (·.own)).foldl (ImportOrder.add find? (ps.length + 1) []) ⟨[], []⟩

/-- A source file as a place for names.  A package that cannot be imported is empty, and goes by the
last part of its path. -/
def fileScope (version : Nat) (order : ImportOrder) (p : SourcePackage) (f : SourceFile) :
    FileScope :=
  let found? (path : String) : Option PackageRef :=
    if path == "unsafe" then some ⟨path, path⟩
    else if order.closing.contains (p.ref.path, path) then none
    else (order.sorted.find? (·.ref.path == path)).map (·.ref)
  let target (path : String) : String := ((found? path).map (·.path)).getD ""
  let named := f.imports.filterMap fun i =>
    match i.name with
    | none => some (((found? i.path).map (·.name)).getD (lastPart i.path), target i.path)
    | some n => if n == "_" || n == "." then none else some (n, target i.path)
  { path := f.path
    imports := named.filter (·.1 != "init")
    merged := f.imports.filterMap fun i => if i.name == some "." then some (target i.path) else none
    version := match f.version with
      | some v => max v 21
      | none => version }

/-! ## declarations -/

/-- The declarations of a specification; the first has a given number. -/
def specDeclarations (file : FileScope) (first : Nat) : Spec → List Declaration
  | .const names type values iota =>
    names.zipIdx.map fun (n, i) => ⟨file, .const n type values[i]? iota⟩
  | .var names type [e] =>
    let group := (List.range names.length).map (first + ·)
    names.map fun n => ⟨file, .var n group type (some e)⟩
  | .var names type values =>
    names.zipIdx.map fun (n, i) => ⟨file, .var n [] type values[i]?⟩
  | .type name typeParams isAlias type => [⟨file, .type name typeParams isAlias type⟩]

/-- Adds the declarations of a file. -/
def addDeclarations (file : FileScope) (ds : Array Declaration) : Decl → Array Declaration
  | .specs ss => ss.foldl (fun ds s => ds ++ (specDeclarations file ds.size s).toArray) ds
  | .func f => ds.push ⟨file, .func f⟩

/-- The name that a declaration makes known in its package.  Methods, blank names and functions that
start a package have none; only functions go by the names `init` and `main`. -/
def DeclBody.packageName? (package : String) (b : DeclBody) : Option String :=
  let name := b.name.name
  match b with
  | .func f => if f.receiver.isSome || name == "_" || name == "init" then none else some name
  | _ =>
    if name == "_" || name == "init" || (name == "main" && package == "main") then none
    else some name

/-- The names of declarations; the first declaration of a name counts. -/
def declaredNames (package : String) (ds : Array Declaration) : Std.HashMap String Nat :=
  ds.toList.zipIdx.foldl (fun m (d, i) =>
    match d.body.packageName? package with
    | some name => m.insertIfNew name i
    | none => m) ∅

/-- A package as a place for names. -/
def packageScope (version : Nat) (order : ImportOrder) (p : SourcePackage) : PackageScope :=
  let ds := p.ownFiles.foldl (fun ds f =>
    f.decls.foldl (addDeclarations (fileScope version order p f)) ds) #[]
  ⟨p.ref, p.own, declaredNames p.ref.name ds, ds⟩

namespace PackageScope

/-- The declaration that a name stands for. -/
def declaration? (p : PackageScope) (name : String) : Option (Nat × Declaration) := do
  let n ← p.names[name]?
  return (n, ← p.declarations[n]?)

/-- The declarations with their references. -/
def all (p : PackageScope) : List (DeclRef × Declaration) :=
  p.declarations.toList.zipIdx.map fun (d, i) => (⟨p.ref.path, i⟩, d)

/-! ## methods -/

/-- The new type to which aliases lead from an expression, and whether a pointer lies on the way. -/
def baseType? (p : PackageScope) : Nat → Bool → Expr → Option (Bool × TypeRef)
  | 0, _, _ => none
  | fuel + 1, pointer, x => do
    let (pointer, x) ← match x.unparen with
      | .star y => if pointer then none else some (true, y.unparen)
      | y => some (pointer, y)
    match x with
    | .ident id =>
      let (_, d) ← p.declaration? id.name
      match d.body with
      | .type name typeParams isAlias type =>
        if !isAlias then some (pointer, typeRef (.ofFile p.ref d.file) name)
        else if typeParams.isEmpty then p.baseType? fuel pointer type
        else none
      | _ => none
    | _ => none

/-- The method that a declaration declares, with the type to which it belongs. -/
def method? (p : PackageScope) (r : DeclRef) (d : Declaration) : Option (TypeRef × Method) := do
  match d.body with
  | .func f =>
    let .mk _ x _ _ ← f.receiver
    let (pointer, base, _) := unpackReceiver x
    match base with
    | .ident _ =>
      let (pointer, ref) ← p.baseType? (p.declarations.size + 1) pointer base
      if f.name.name == "_" then none else some (ref, ⟨f.name.name, p.ref.path, pointer, r⟩)
    | _ => none
  | _ => none

/-- Adds the methods of a package; the first of a name counts. -/
def addMethods (p : PackageScope) (ms : Std.HashMap TypeRef (List Method)) :
    Std.HashMap TypeRef (List Method) :=
  p.all.foldl (fun ms (r, d) =>
    match p.method? r d with
    | some (ref, m) =>
      ms.alter ref fun known =>
        let known := known.getD []
        some (if known.any (·.name == m.name) then known else known ++ [m])
    | none => ms) ms

/-! ## circles -/

/-- Follows a type from name to name.  The path is given back with the name at which it closes. -/
def follow (p : PackageScope) (known : List Nat) : Nat → List Nat → Nat → List Nat × Option Nat
  | 0, path, _ => (path, none)
  | fuel + 1, path, n =>
    if known.contains n then (path, none)
    else if path.contains n then (path, some n)
    else
      let path := n :: path
      let next : Option (Nat × Declaration) := match p.declarations[n]?.map Declaration.body with
        | some (.type _ _ _ (.ident id)) =>
          (p.declaration? id.name).filter fun (_, d) => d.body.isType
        | _ => none
      match next with
      | some (m, _) => p.follow known fuel path m
      | none => (path, none)

/-- The types that are declared to be themselves, perhaps through other names. -/
def circular (p : PackageScope) : List Nat :=
  let types := p.declarations.toList.zipIdx.filter fun (d, _) => d.body.isType
  (types.foldl (fun (known, found) (_, n) =>
    let (path, closed) := p.follow known (p.declarations.size + 1) [] n
    (path ++ known, found ++ closed.toList)) (([] : List Nat), ([] : List Nat))).2

end PackageScope

/-! ## packages -/

/-- Whether a declaration belongs to a stage: new types, aliases, functions, and the rest. -/
def DeclBody.stage : DeclBody → Nat
  | .type _ _ false _ => 0
  | .type _ _ true _ => 1
  | .func _ => 2
  | _ => 3

/-- Checks something that was put off. -/
def checkPending (c : Checker) : Pending → Check Unit
  | .body env stmts => checkBody c env stmts
  | .containment r => do
    match (← world).objects[r]? with
    | some (.type t) => modifyWorld fun w => w.checkContainment t
    | _ => pure ()

/-- Checks a package: types first, then aliases, functions, constants and variables, and last what
was put off. -/
def checkPackage (c : Checker) (p : PackageScope) : Check Unit := do
  modifyWorld fun w => { w with
    packages := w.packages.insert p.ref.path p
    methods := p.addMethods w.methods }
  p.circular.forM fun n => enterObject ⟨p.ref.path, n⟩ (.type .invalid)
  [0, 1, 2, 3].forM fun stage =>
    p.all.forM fun (r, d) => if d.body.stage == stage then c.declare false r else pure ()
  let pending := (← get).pending
  modify fun q => { q with pending := #[] }
  pending.forM (checkPending c)

/-- Checks the packages of a module.  A construct of `n` tokens has fewer than `4 * n` constructs
one inside the other, and no declaration is worked out inside itself. -/
def Module.check (m : Module) : Progress :=
  let order := ImportOrder.ofPackages m.packages
  let size := (order.sorted.flatMap fun p => p.files.map (·.size)).foldl (· + ·) 0
  let c := Checker.ofDepth (4 * size + 64)
  let scopes := order.sorted.map (packageScope m.version order)
  ((scopes.forM (checkPackage c)).run (.start .empty)).2

end Ripple.Go
