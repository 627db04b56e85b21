import Ripple.Go.Primitive
import Ripple.Go.Tree
import Ripple.Text.Quoted
import Ripple.Text.Search

/-!
# Ripple.Go.Type

Go types.  A declared type stands for itself and is looked up where its meaning is needed, so types
are finite trees however their declarations refer to each other.  `Ty.text` writes a type as seen
from a package.
-/

namespace Ripple.Go

/-- A package. -/
structure PackageRef where
  path : String
  name : String
  deriving DecidableEq, Repr, Hashable, Inhabited

/-- A declared type or a type parameter, identified by where its name stands. -/
structure TypeRef where
  /-- None for what every package sees. -/
  package : Option PackageRef
  name : String
  file : String
  index : Nat
  /-- Which copy of a type parameter it is; the declared one is 0.  Copies keep apart the parameters
  of a generic function and those of a call of it inside itself. -/
  copy : Nat := 0
  deriving DecidableEq, Repr, Hashable, Inhabited

/-- A field of a struct without its type. -/
structure FieldName where
  name : String
  package : String
  embedded : Bool
  tag : RawText
  deriving DecidableEq, Repr

/-- A method of an interface without its type. -/
structure MethodName where
  name : String
  package : String
  /-- The signature as declared. -/
  signature : String
  line : Nat
  deriving DecidableEq, Repr

/-- A type. -/
inductive Ty where
  /-- A type that cannot be resolved. -/
  | invalid
  | primitive (p : Primitive)
  | named (ref : TypeRef) (args : List Ty)
  | synonym (ref : TypeRef) (args : List Ty)
  | param (ref : TypeRef)
  | pointer (element : Ty)
  | slice (element : Ty)
  | array (length : Nat) (element : Ty)
  | map (key value : Ty)
  | chan (dir : ChanDir) (element : Ty)
  /-- A function; the last parameter of a variadic one is a slice.  Names may be empty. -/
  | func (typeParams : List TypeRef) (names : List String) (params : List Ty) (variadic : Bool)
    (resultNames : List String) (results : List Ty)
  | struct (names : List FieldName) (types : List Ty)
  /-- An interface; `comparable` restricts it to types whose values can be compared. -/
  | interface (comparable : Bool) (names : List MethodName) (types embedded : List Ty)
  /-- Alternatives of a constraint; a flag says whether all types with this base are meant. -/
  | union (tildes : List Bool) (types : List Ty)
  /-- The results of a call. -/
  | tuple (types : List Ty)
  deriving Inhabited, BEq

/-- A substitution of types for type parameters. -/
abbrev Subst := List (TypeRef × Ty)

/-! ## substitution -/

mutual

/-- Replaces type parameters. -/
def Ty.subst (σ : Subst) : Ty → Ty
  | .invalid => .invalid
  | .primitive p => .primitive p
  | .named ref args => .named ref (Ty.substAll σ args)
  | .synonym ref args => .synonym ref (Ty.substAll σ args)
  | .param ref => (σ.lookup ref).getD (.param ref)
  | .pointer t => .pointer (t.subst σ)
  | .slice t => .slice (t.subst σ)
  | .array n t => .array n (t.subst σ)
  | .map k v => .map (k.subst σ) (v.subst σ)
  | .chan dir t => .chan dir (t.subst σ)
  | .func ps names params variadic resultNames results =>
    .func ps names (Ty.substAll σ params) variadic resultNames (Ty.substAll σ results)
  | .struct names types => .struct names (Ty.substAll σ types)
  | .interface comparable names types embedded =>
    .interface comparable names (Ty.substAll σ types) (Ty.substAll σ embedded)
  | .union tildes types => .union tildes (Ty.substAll σ types)
  | .tuple ts => .tuple (Ty.substAll σ ts)

/-- Replaces type parameters in some types. -/
def Ty.substAll (σ : Subst) : List Ty → List Ty
  | [] => []
  | t :: ts => t.subst σ :: Ty.substAll σ ts

end

mutual

/-- Whether one of some type parameters occurs in a type. -/
def Ty.mentions (ps : List TypeRef) : Ty → Bool
  | .invalid | .primitive _ => false
  | .named _ args | .synonym _ args => Ty.anyMentions ps args
  | .param ref => ps.contains ref
  | .pointer t | .slice t | .array _ t | .chan _ t => t.mentions ps
  | .map k v => k.mentions ps || v.mentions ps
  | .func _ _ params _ _ results => Ty.anyMentions ps params || Ty.anyMentions ps results
  | .struct _ types | .union _ types | .tuple types => Ty.anyMentions ps types
  | .interface _ _ types embedded => Ty.anyMentions ps types || Ty.anyMentions ps embedded

/-- Whether one of some type parameters occurs in one of some types. -/
def Ty.anyMentions (ps : List TypeRef) : List Ty → Bool
  | [] => false
  | t :: ts => t.mentions ps || Ty.anyMentions ps ts

end

mutual

/-- The number of steps from a type to its farthest part. -/
def Ty.height : Ty → Nat
  | .invalid | .primitive _ | .param _ => 0
  | .named _ args | .synonym _ args => Ty.heights args + 1
  | .pointer t | .slice t | .array _ t | .chan _ t => t.height + 1
  | .map k v => max k.height v.height + 1
  | .func _ _ params _ _ results => max (Ty.heights params) (Ty.heights results) + 1
  | .struct _ types | .union _ types | .tuple types => Ty.heights types + 1
  | .interface _ _ types embedded => max (Ty.heights types) (Ty.heights embedded) + 1

/-- The greatest height of some types. -/
def Ty.heights : List Ty → Nat
  | [] => 0
  | t :: ts => max t.height (Ty.heights ts)

end

/-! ## shapes -/

/-- Whether a type is that of an untyped constant or of `nil`. -/
def Ty.isUntyped : Ty → Bool
  | .primitive p => p.isUntyped
  | _ => false

/-- The type that an untyped value has where none is asked for. -/
def Ty.default : Ty → Ty
  | .primitive p => .primitive p.default
  | t => t

/-- Whether a type is the one that cannot be resolved. -/
def Ty.isInvalid : Ty → Bool
  | .invalid => true
  | _ => false

/-! ## text -/

/-- The name of a type with that of its package, unless it is seen from there. -/
def TypeRef.text (home : String) (r : TypeRef) : String :=
  match r.package with
  | none => r.name
  | some p => if p.path == home then r.name else p.name ++ "." ++ r.name

/-- The keyword of a channel type. -/
def ChanDir.text : ChanDir → String
  | .both => "chan "
  | .send => "chan<- "
  | .receive => "<-chan "

/-- A text without a number of characters at its front. -/
def dropFront (n : Nat) (s : String) : String := String.ofList (s.toList.drop n)

/-- A name in front of a text, if there is one. -/
def labelText (name text : String) : String := if name.isEmpty then text else name ++ " " ++ text

/-- The texts of parameters from those of their types; the slice that a variadic function takes last
is written with dots. -/
def spreadLast (variadic : Bool) : List String → List String
  | [] => []
  | [t] => [if variadic then "..." ++ dropFront 2 t else t]
  | t :: ts => t :: spreadLast variadic ts

/-- Parameters and results of a function from the texts of their types. -/
def signatureText (names params : List String) (variadic : Bool)
    (resultNames results : List String) : String :=
  let head := "(" ++ Text.join ", " (names.zipWith labelText (spreadLast variadic params)) ++ ")"
  match resultNames, results with
  | _, [] => head
  | [""], [r] => head ++ " " ++ r
  | ns, rs => head ++ " (" ++ Text.join ", " (ns.zipWith labelText rs) ++ ")"

/-- A field of a struct from the text of its type. -/
def FieldName.text (f : FieldName) (type : String) : String :=
  (if f.embedded then type else f.name ++ " " ++ type) ++
    (if f.tag.bytes.isEmpty then "" else " " ++ f.tag.quote)

/-- The built-in functions that need no package. -/
def builtinNames : List String :=
  ["append", "cap", "clear", "close", "complex", "copy", "delete", "imag", "len", "make", "max",
    "min", "new", "panic", "print", "println", "real", "recover"]

/-- Whether every package sees a name. -/
def isPredeclared (name : String) : Bool :=
  Primitive.named.any (·.1 == name) || builtinNames.contains name ||
    ["any", "comparable", "error", "true", "false", "iota", "nil"].contains name

mutual

/-- A type as it is written in a package.  A type parameter with a predeclared name says what it
is. -/
def Ty.text (home : String) : Ty → String
  | .invalid => "invalid type"
  | .primitive p => p.name
  | .named ref args | .synonym ref args =>
    ref.text home ++
      (if args.isEmpty then "" else "[" ++ Text.join ", " (Ty.texts home args) ++ "]")
  | .param ref => ref.name ++ (if isPredeclared ref.name then "/* type parameter */" else "")
  | .pointer t => "*" ++ t.text home
  | .slice t => "[]" ++ t.text home
  | .array n t => "[" ++ toString n ++ "]" ++ t.text home
  | .map k v => "map[" ++ k.text home ++ "]" ++ v.text home
  | .chan .both (.chan .receive t) => "chan (<-chan " ++ t.text home ++ ")"
  | .chan dir t => dir.text ++ t.text home
  | .func _ names params variadic resultNames results =>
    "func" ++ signatureText names (Ty.texts home params) variadic resultNames
      (Ty.texts home results)
  | .struct names types =>
    "struct\x7b" ++ Text.join "; " (names.zipWith FieldName.text (Ty.texts home types)) ++ "\x7d"
  | .interface _ names types embedded =>
    let methods := names.zipWith (fun m t => m.name ++ dropFront 4 t) (Ty.texts home types)
    "interface\x7b" ++ Text.join "; " (methods ++ Ty.texts home embedded) ++ "\x7d"
  | .union tildes types =>
    Text.join " | " (tildes.zipWith (fun b t => (if b then "~" else "") ++ t) (Ty.texts home types))
  | .tuple ts => "(" ++ Text.join ", " (Ty.texts home ts) ++ ")"

/-- Some types as they are written in a package. -/
def Ty.texts (home : String) : List Ty → List String
  | [] => []
  | t :: ts => t.text home :: Ty.texts home ts

end

/-! ## signatures -/

/-- The types of the parameters of a function as they stand in a signature. -/
def Ty.parameterTypes (home : String) : Ty → List String
  | .func _ _ params variadic _ _ => spreadLast variadic (Ty.texts home params)
  | _ => []

/-- The type of the result of a function: none, one, or several in brackets. -/
def Ty.resultText (home : String) : Ty → String
  | .func _ _ _ _ _ [] => ""
  | .func _ _ _ _ _ [t] => t.text home
  | .func _ _ _ _ _ results => "(" ++ Text.join "," (Ty.texts home results) ++ ")"
  | _ => ""

end Ripple.Go
