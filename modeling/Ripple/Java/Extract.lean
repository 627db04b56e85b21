import Ripple.Java.Facts
import Ripple.Java.Tree
import Ripple.Text.Search
import Ripple.Text.Blank

/-!
# Ripple.Java.Extract

The facts of type declarations.  A bare name in a method body is an access of a field when a field
of that name is visible and no variable of that name is declared anywhere in the method; `a.f` is
always an access of `f`.
-/

namespace Ripple.Java

/-- The name of a type without its qualifiers and type arguments. -/
def simpleTypeName (type : String) : String :=
  Text.trim (Text.afterLast '.' (Text.upTo '<' type))

/-! ## locals -/

mutual

/-- The names of the variables declared in a tree.  Names bound by the patterns of a switch or of a
record are not among them. -/
def Tree.locals : Tree → List String
  | .name .. => []
  | .select object _ _ => object.locals
  | .invoke object _ _ args => Tree.localsOf? object ++ Tree.localsOf args
  | .create outer _ _ args body => Tree.localsOf? outer ++ Tree.localsOf args ++ Tree.localsOf body
  | .delegate _ outer _ args => Tree.localsOf? outer ++ Tree.localsOf args
  | .assign target value => target.locals ++ value.locals
  | .update target => target.locals
  | .paren inner => inner.locals
  | .variable _ id value => id :: Tree.localsOf? value
  | .lambda parameters body => parameters ++ body.locals
  | .typeTest value binding pattern =>
    binding.toList ++ value.locals ++ Tree.localsOf? pattern
  | .methodReference qualifier => Tree.localsOf? qualifier
  | .labelled _ body => body.locals
  | .jump => []
  | .group _ parts => Tree.localsOf parts

/-- The names of the variables declared in a tree, if there is one. -/
def Tree.localsOf? : Option Tree → List String
  | none => []
  | some t => t.locals

/-- The names of the variables declared in some trees. -/
def Tree.localsOf : List Tree → List String
  | [] => []
  | t :: ts => t.locals ++ Tree.localsOf ts

end

/-! ## bodies -/

/-- Something that a method body does. -/
inductive Event where
  | call (c : Call)
  | read (a : Access)
  | write (a : Access)
  deriving DecidableEq, Repr

/-- The call that an event is. -/
def Event.call? : Event → Option Call
  | call c => some c
  | read _ | write _ => none

/-- The read that an event is. -/
def Event.read? : Event → Option Access
  | read a => some a
  | call _ | write _ => none

/-- The write that an event is. -/
def Event.write? : Event → Option Access
  | write a => some a
  | call _ | read _ => none

/-- What decides the meaning of names in a method body. -/
structure BodyScope where
  /-- The type that declares the method. -/
  className : String
  fields : List String
  locals : List String

/-- Whether a bare name means a field. -/
def BodyScope.isField (s : BodyScope) (id : String) : Bool :=
  s.fields.contains id && !s.locals.contains id

/-- The access of a bare name: of a field, or nothing. -/
def BodyScope.bare (s : BodyScope) (asTarget : Bool) (id : String) (line : Nat) : List Event :=
  if s.isField id then [if asTarget then .write ⟨id, line⟩ else .read ⟨id, line⟩] else []

/-- The access of the name of a declared variable: that of a resource is looked at like a use of it,
the other names are not looked at. -/
def BodyScope.declared (s : BodyScope) : Binder → String → List Event
  | .resource line, id => s.bare false id line
  | _, _ => []

mutual

/-- What a tree does, in the order in which it is found; `asTarget` says whether its value is
assigned.  A call comes before what its object and arguments do. -/
def Tree.events (s : BodyScope) (asTarget : Bool) : Tree → List Event
  | .name _ id line => s.bare asTarget id line
  | .select object field line =>
    (if asTarget then .write ⟨field, line⟩ else .read ⟨field, line⟩) :: object.events s false
  | .invoke object method line args =>
    .call ⟨method, args.length, line⟩ :: (Tree.eventsOf? s object ++ Tree.eventsOf s args)
  | .create _ type line args body =>
    .call ⟨simpleTypeName type, args.length, line⟩ :: (Tree.eventsOf s args ++ Tree.eventsOf s body)
  | .delegate self _ line args =>
    (if self then [.call ⟨s.className, args.length, line⟩] else []) ++ Tree.eventsOf s args
  | .assign target value => target.events s true ++ value.events s false
  | .update target => target.events s true
  | .paren inner => inner.events s asTarget
  | .variable binder id value => s.declared binder id ++ Tree.eventsOf? s value
  | .lambda _ body => body.events s false
  | .typeTest value _ _ => value.events s false
  | .methodReference _ => []
  | .labelled _ body => body.events s false
  | .jump => []
  | .group _ parts => Tree.eventsOf s parts

/-- What a tree does, if there is one. -/
def Tree.eventsOf? (s : BodyScope) : Option Tree → List Event
  | none => []
  | some t => t.events s false

/-- What some trees do. -/
def Tree.eventsOf (s : BodyScope) : List Tree → List Event
  | [] => []
  | t :: ts => t.events s false ++ Tree.eventsOf s ts

end

/-! ## declarations -/

/-- The types of a parameter, as they appear in a signature. -/
def Parameter.signatureTypes (p : Parameter) : List String :=
  if p.spread then p.types.map (· ++ "...") else p.types

/-- The facts of a method of a type from which some fields are visible. -/
def Method.facts (m : Method) (className : String) (fields : List String) : MethodFacts :=
  let scope : BodyScope :=
    ⟨className, fields, m.parameters.map (·.name) ++ Tree.localsOf? m.body⟩
  let events := Tree.eventsOf? scope m.body
  { name := m.name
    params := m.parameters.flatMap Parameter.signatureTypes
    returnType := m.returnType
    line := m.line
    calls := events.filterMap Event.call?
    reads := events.filterMap Event.read?
    writes := events.filterMap Event.write? }

/-- The field that a component of a record declares. -/
def Parameter.field? (p : Parameter) : Option FieldFacts :=
  if p.spread then none else some ⟨p.name, "".intercalate p.types, p.line⟩

/-- The fields that a member of a type declares. -/
def Member.fieldFacts (className : String) : Member → List FieldFacts
  | .fields type ds => ds.map fun d => ⟨d.name, type, d.line⟩
  | .constant name line _ _ => [⟨name, className, line⟩]
  | _ => []

/-- The method that a member of a type declares. -/
def Member.method? : Member → Option Method
  | .method m => some m
  | _ => none

/-- The fields of a type: components, constants and declared fields, in source order. -/
def TypeDecl.fieldFacts : TypeDecl → List FieldFacts
  | .mk name _ _ components members =>
    components.filterMap Parameter.field? ++ members.flatMap (Member.fieldFacts name)

/-- The facts of a type alone, where some fields are visible from outside. -/
def TypeDecl.ownFacts (outer : List String) : TypeDecl → ClassFacts
  | d@(.mk name _ line _ members) =>
    let fields := d.fieldFacts
    let visible := outer ++ fields.map (·.name)
    { name, line, fields
      methods := (members.filterMap Member.method?).map fun m => m.facts name visible }

mutual

/-- The facts of a type and of the types nested in it, outer types first. -/
def TypeDecl.facts (outer : List String) : TypeDecl → List ClassFacts
  | .mk name nameLine line components members =>
    let d := TypeDecl.mk name nameLine line components members
    d.ownFacts outer :: Member.nestedFacts (outer ++ d.fieldFacts.map (·.name)) members

/-- The facts of the types nested in some members. -/
def Member.nestedFacts (visible : List String) : List Member → List ClassFacts
  | [] => []
  | .nested d :: ms => d.facts visible ++ Member.nestedFacts visible ms
  | _ :: ms => Member.nestedFacts visible ms

end

/-- The facts of the types of a compilation unit. -/
def unitFacts (ds : List TypeDecl) : List ClassFacts := ds.flatMap (TypeDecl.facts [])

end Ripple.Java
