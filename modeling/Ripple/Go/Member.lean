import Ripple.Go.Meaning

/-!
# Ripple.Go.Member

Fields and methods of types.  A member is looked for depth by depth in the types that structs embed;
it is found if exactly one type at the least depth has it.
-/

namespace Ripple.Go

/-- A member of a type. -/
inductive Member where
  | field (name : FieldName) (type : Ty)
  /-- A method of a declared type with the arguments of that type. -/
  | method (m : Method) (args : List Ty)
  /-- A method of an interface. -/
  | abstract (m : MethodName) (type : Ty)
  deriving Inhabited

/-- A member that was found. -/
structure Found where
  member : Member
  /-- A pointer lies on the way to it. -/
  indirect : Bool
  /-- The numbers of the fields on the way to it, the last one first. -/
  path : List Nat
  deriving Inhabited

/-- A type in which a member is looked for. -/
structure Candidate where
  type : Ty
  indirect : Bool
  /-- It occurs more than once at its depth. -/
  multiple : Bool
  path : List Nat

namespace World

/-- What a pointer type points to, and whether the type is one. -/
def deref (w : World) (t : Ty) : Ty × Bool :=
  match w.resolved t with
  | .pointer e => (w.resolved e, true)
  | t => (t, false)

/-- The method attached to a declared type. -/
def attached? (w : World) (home name : String) (t : Ty) : Option Member :=
  match t with
  | .named ref args =>
    (((w.methods[ref]?).getD []).find? fun m => sameName home name m.name m.package).map fun m =>
      .method m args
  | _ => none

/-- The methods that an interface or a type parameter has. -/
def abstractMethods (w : World) (t : Ty) : List (MethodName × Ty) := (w.typeSet t).methods

/-- The method of an interface or a type parameter with a name. -/
def abstract? (w : World) (home name : String) (t : Ty) : Option Member :=
  ((w.abstractMethods t).find? fun (m, _) => sameName home name m.name m.package).map fun (m, t) =>
    .abstract m t

/-- The members with a name directly in a type, and the types embedded in it. -/
def shallow (w : World) (home name : String) (c : Candidate) : List Found × List Candidate :=
  match w.attached? home name c.type with
  | some m => ([⟨m, c.indirect, c.path⟩], [])
  | none =>
    match w.underlying c.type with
    | .struct names types =>
      let fields := (names.zip types).zipIdx
      let hits := fields.filter fun ((f, _), _) => sameName home name f.name f.package
      let embedded := (fields.filter fun ((f, _), _) => f.embedded).map fun ((_, t), i) =>
        let (e, isPointer) := w.deref t
        ⟨e, c.indirect || isPointer, c.multiple, i :: c.path⟩
      (hits.map fun ((f, t), i) => ⟨.field f t, c.indirect, i :: c.path⟩, embedded)
    | .interface .. =>
      (((w.abstract? home name c.type).map fun m => ⟨m, c.indirect, c.path⟩).toList, [])
    | _ => ([], [])

/-- Candidates with each type once; one that occurs again is marked. -/
def consolidate (w : World) : List Candidate → List Candidate
  | [] => []
  | c :: cs =>
    let rest := w.consolidate cs
    if rest.any fun d => w.identical d.type c.type then
      { c with multiple := true } :: rest.filter fun d => !w.identical d.type c.type
    else c :: rest

/-- Looks for a member depth by depth.  A declared type met at a lesser depth is not searched
again. -/
def search (w : World) (home name : String) : Nat → List Ty → List Candidate → Option Found
  | 0, _, _ => none
  | _, _, [] => none
  | fuel + 1, seen, current =>
    let fresh := current.filter fun c =>
      match c.type with
      | .named _ _ => !seen.any fun t => w.identical t c.type
      | _ => true
    let found := fresh.map fun c => (c, w.shallow home name c)
    match found.flatMap fun (c, hits, _) => hits.map fun h => (c, h) with
    | [] =>
      let seen := fresh.map (·.type) ++ seen
      w.search home name fuel seen (w.consolidate (found.flatMap fun (_, _, next) => next))
    | [(c, h)] => if c.multiple then none else some h
    | _ => none

/-- Looks for a field or a method in a type, where a pointer to a declared pointer type is not
followed.  A method with a pointer receiver needs a pointer on the way or a value that has an
address. -/
def memberIn? (w : World) (home name : String) (addressable : Bool) (t : Ty) : Option Found :=
  let (e, isPointer) := w.deref t
  let blocked := isPointer && (match w.underlying e with | .interface .. => true | _ => false)
  if name == "_" || blocked then none
  else
    match w.search home name (w.depth + 8) [] [⟨e, isPointer, false, []⟩] with
    | some ⟨.method m args, indirect, path⟩ =>
      if m.pointer && !indirect && !addressable then none
      else some ⟨.method m args, indirect, path⟩
    | r => r

/-- Looks for a field or a method of a type.  A declared pointer type has no methods. -/
def member? (w : World) (home name : String) (addressable : Bool) (t : Ty) : Option Found :=
  match w.isNamed t, w.underlying t with
  | true, .pointer e =>
    match w.memberIn? home name false (.pointer e) with
    | some ⟨.field f t, indirect, path⟩ => some ⟨.field f t, indirect, path⟩
    | _ => none
  | _, _ => w.memberIn? home name addressable t

/-- The type of a declared method of a type with arguments, once it is known. -/
def methodType? (w : World) (m : Method) (args : List Ty) : Option Ty :=
  match w.objects[m.decl]? with
  | some (.func t _ (some receiver)) =>
    let params := receiver.params
    some (if params.length = args.length then t.subst (bindParams params args) else t)
  | _ => none

/-- The type of a member that is a method. -/
def memberMethod? (w : World) : Member → Option Ty
  | .method m args => w.methodType? m args
  | .abstract _ t => some t
  | .field _ _ => none

/-- Whether a type has all methods of an interface, with types that agree.  With `static` unset, an
interface may lack some. -/
def hasMethods (w : World) (agree : Ty → Ty → Bool) (static : Bool) (t iface : Ty) : Bool :=
  let wanted := w.abstractMethods iface
  match w.underlying t with
  | .interface .. =>
    let given := w.abstractMethods t
    wanted.all fun (m, x) =>
      match given.find? fun (n, _) => methodId n.name n.package == methodId m.name m.package with
      | some (_, y) => agree y x
      | none => !static
  | _ =>
    wanted.all fun (m, x) =>
      match (w.memberIn? m.package m.name false t).bind fun f => w.memberMethod? f.member with
      | some y => agree y x
      | none => false

end World

end Ripple.Go
