import Ripple.Go.Constant
import Ripple.Go.Type
import Ripple.Text.Upper
import Std.Data.HashMap

/-!
# Ripple.Go.Scope

What names mean.  `World` holds what is known of the declarations of all packages; `Env` is a place
in the code, with its file and the blocks around it.
-/

namespace Ripple.Go

/-- A declaration at the top of a package, by its number there. -/
structure DeclRef where
  package : String
  index : Nat
  deriving DecidableEq, Repr, Hashable, Inhabited

/-- The receiver of a method. -/
structure Receiver where
  type : Ty
  /-- The names that the method has for the parameters of a generic type. -/
  params : List TypeRef
  deriving Inhabited

/-- What a name stands for. -/
inductive Object where
  | variable (type : Ty)
  | const (type : Ty) (value : Constant)
  | type (t : Ty)
  /-- A function with its type and, for one of the project, its signature as declared. -/
  | func (type : Ty) (signature : Option String) (receiver : Option Receiver)
  | package (path : String)
  | builtin (name : String)
  /-- The value `nil`. -/
  | absent
  deriving Inhabited

/-! ## declarations -/

/-- A source file as a place for names. -/
structure FileScope where
  path : String
  /-- The packages that the file names. -/
  imports : List (String × String)
  /-- The packages whose names the file uses as its own. -/
  merged : List String
  /-- The minor version of the language in which the file is written. -/
  version : Nat
  deriving Inhabited

/-- What a declaration says. -/
inductive DeclBody where
  | const (name : Ident) (type : Option Expr) (value : Option Expr) (iota : Nat)
  /-- A variable.  One value can be for several variables, whose numbers are `group`. -/
  | var (name : Ident) (group : List Nat) (type : Option Expr) (value : Option Expr)
  | type (name : Ident) (typeParams : List Field) (isAlias : Bool) (type : Expr)
  | func (f : FuncDecl)

/-- A declaration at the top of a file. -/
structure Declaration where
  file : FileScope
  body : DeclBody

/-- The name that a declaration declares. -/
def DeclBody.name : DeclBody → Ident
  | .const name _ _ _ | .var name _ _ _ | .type name _ _ _ => name
  | .func f => f.name

/-- A package with its declarations. -/
structure PackageScope where
  ref : PackageRef
  /-- Whether its functions and fields are those of the project. -/
  own : Bool
  /-- The numbers of the declarations that names stand for. -/
  names : Std.HashMap String Nat
  declarations : Array Declaration

/-- The declaration of a type. -/
structure TypeInfo where
  params : List TypeRef
  /-- What stands on the right side, once it is known. -/
  rhs : Option Ty
  /-- It does not contain itself. -/
  sound : Bool := true
  deriving Inhabited

/-- A method of a declared type. -/
structure Method where
  name : String
  package : String
  /-- Its receiver is a pointer. -/
  pointer : Bool
  decl : DeclRef
  deriving DecidableEq, Repr, Inhabited

/-- What is known of the declarations of all packages. -/
structure World where
  packages : Std.HashMap String PackageScope
  /-- The declarations whose meaning is known, perhaps only in part. -/
  objects : Std.HashMap DeclRef Object
  types : Std.HashMap TypeRef TypeInfo
  bounds : Std.HashMap TypeRef Ty
  /-- The bounds of copies of type parameters. -/
  copies : List (TypeRef × Ty)
  methods : Std.HashMap TypeRef (List Method)

/-- More than the number of declarations a chain of declared types can go through. -/
def World.depth (w : World) : Nat := w.types.size + 256

/-! ## predeclared names -/

/-- A type that every package sees. -/
def universeRef (name : String) : TypeRef := ⟨none, name, "", 0, 0⟩

/-- The empty interface. -/
def emptyInterface : Ty := .interface false [] [] []

/-- The method of the type `error`. -/
def errorInterface : Ty :=
  .interface false [⟨"Error", "", "Error()", 0⟩]
    [.func [] [] [] false [""] [.primitive .string]] []

/-- What a predeclared name stands for. -/
def universe? (name : String) : Option Object :=
  match Primitive.named.lookup name with
  | some p => some (.type (.primitive p))
  | none =>
    if builtinNames.contains name then some (.builtin name)
    else
      match name with
      | "error" | "comparable" => some (.type (.named (universeRef name) []))
      | "any" => some (.type (.synonym (universeRef name) []))
      | "true" => some (.const (.primitive .untypedBool) (.truth true))
      | "false" => some (.const (.primitive .untypedBool) (.truth false))
      | "nil" => some .absent
      | _ => none

/-- The functions of the package `unsafe`. -/
def lowLevelNames : List String :=
  ["Add", "Alignof", "Offsetof", "Sizeof", "Slice", "SliceData", "String", "StringData"]

/-- What a name of the package `unsafe` stands for. -/
def lowLevel? (name : String) : Option Object :=
  if name == "Pointer" then some (.type (.primitive .pointer))
  else if lowLevelNames.contains name then some (.builtin ("unsafe." ++ name))
  else none

/-- The world before any package. -/
def World.empty : World where
  packages := ∅
  objects := ∅
  types := .ofList
    [(universeRef "error", ⟨[], some errorInterface, true⟩),
      (universeRef "comparable", ⟨[], some (.interface true [] [] []), true⟩),
      (universeRef "any", ⟨[], some emptyInterface, true⟩)]
  bounds := ∅
  copies := []
  methods := ∅

/-- Whether a name can be used by other packages. -/
def exported (name : String) : Bool :=
  match name.toList with
  | c :: _ => Text.isUpper c
  | [] => false

/-- Whether a declared name is the one that a package means: an exported one, or one of its own. -/
def sameName (home name declared package : String) : Bool :=
  declared == name && (exported name || package == home)

namespace World

/-- The declaration with a reference. -/
def declaration? (w : World) (r : DeclRef) : Option Declaration :=
  (w.packages[r.package]?).bind fun p => p.declarations[r.index]?

/-- The declaration that a name stands for at the top of a package. -/
def named? (w : World) (path name : String) : Option DeclRef :=
  (w.packages[path]?).bind fun p => (p.names[name]?).map fun n => ⟨path, n⟩

/-- Whether the functions and fields of a package are those of the project. -/
def owns (w : World) (path : String) : Bool := (w.packages[path]?).any (·.own)

end World

/-! ## places -/

/-- A place in the code. -/
structure Env where
  package : PackageRef
  file : FileScope
  /-- The blocks around the place, the innermost first. -/
  blocks : List (List (String × Object))
  /-- The value of `iota`, inside a constant declaration. -/
  iota : Option Nat
  /-- The place is inside a list of type parameters. -/
  inTypeParams : Bool
  /-- The place is outside functions, where the bodies of function literals are put off. -/
  outside : Bool
  deriving Inhabited

/-- What is found under a name. -/
inductive Binding where
  | object (o : Object)
  | decl (r : DeclRef)

namespace Env

/-- The start of a file. -/
def ofFile (package : PackageRef) (file : FileScope) : Env := ⟨package, file, [], none, false, true⟩

/-- The declaration that a file takes over from another package. -/
def merged? (w : World) (env : Env) (name : String) : Option Binding :=
  if exported name then
    env.file.merged.findSome? fun path =>
      if path == "unsafe" then (lowLevel? name).map .object else (w.named? path name).map .decl
  else none

/-- What is found under a name at a place.  Blocks come first, then the file, the package and what
every package sees. -/
def find? (w : World) (env : Env) (name : String) : Option Binding :=
  match env.blocks.findSome? (·.lookup name) with
  | some o => some (.object o)
  | none =>
    match env.file.imports.lookup name with
    | some path => some (.object (.package path))
    | none =>
      ((env.merged? w name).or ((w.named? env.package.path name).map .decl)).or <|
        if name == "iota" then
          some (.object (match env.iota with
            | some n => .const (.primitive .untypedInt) (.int n)
            | none => .const .invalid .unknown))
        else (universe? name).map .object

/-- Opens a block. -/
def push (env : Env) : Env := { env with blocks := [] :: env.blocks }

/-- Declares a name in the innermost block, unless it is declared there or blank. -/
def declare (env : Env) (name : String) (object : Object) : Env :=
  if name == "_" || name.isEmpty then env
  else
    match env.blocks with
    | b :: bs =>
      if b.any (·.1 == name) then env else { env with blocks := ((name, object) :: b) :: bs }
    | [] => { env with blocks := [[(name, object)]] }

/-- Whether the innermost block declares a name. -/
def declares (env : Env) (name : String) : Bool :=
  (env.blocks.head?.getD []).any (·.1 == name)

end Env

end Ripple.Go
