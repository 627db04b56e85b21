import Ripple.Go.Check.Name
import Ripple.Signature

/-!
# Ripple.Go.Check.Types

The types that type expressions denote.
-/

namespace Ripple.Go

/-- The reference of a type whose name is declared at a place. -/
def typeRef (env : Env) (name : Ident) : TypeRef :=
  ⟨some env.package, name.name, env.file.path, name.index, 0⟩

/-- A pointer to a type; there is none to one that cannot be resolved. -/
def pointerTo (w : World) (t : Ty) : Ty := if w.isValid t then .pointer t else .invalid

/-! ## names -/

/-- The type that a name denotes, perhaps without its type arguments. -/
def nameType (c : Checker) (env : Env) (id : Ident) : Check Ty := do
  match ← lookup c env id.name true with
  | some (.type t) => return t
  | _ => return .invalid

/-- The type that a selector denotes, which is a name of another package. -/
def selectorType (c : Checker) (env : Env) (x : Expr) (sel : Ident) : Check Ty := do
  match ← packageNamed? env x with
  | some path =>
    match ← qualified? c env path sel.name with
    | some (.type t) => return t
    | _ => return .invalid
  | none =>
    discard (c.valueOrType env false x)
    return .invalid

/-- Some types, or nothing if one of them cannot be resolved. -/
def typeList (c : Checker) (env : Env) (es : List Expr) : Check (Option (List Ty)) := do
  let ts ← es.mapM (c.fullType env)
  let w ← world
  return if ts.all w.isValid then some ts else none

/-- A generic type with its arguments.  A declared type keeps a wrong number of them. -/
def instanceType (c : Checker) (env : Env) (x : Expr) (args : List Expr) : Check Ty := do
  let t ← c.type env x
  if !(← world).isGeneric t then return .invalid
  match t, ← typeList c env args with
  | .named ref _, some ts => return .named ref ts
  | .synonym ref _, some ts =>
    let arity := ((← world).types[ref]?.map (·.params.length)).getD 0
    return if ts.length = arity then .synonym ref ts else .invalid
  | _, _ => return .invalid

/-! ## arrays -/

/-- Whether a name stands for a constant. -/
def namesConstant (env : Env) (name : String) : Check Bool := do
  let w ← world
  match env.find? w name with
  | some (.object (.const _ _)) => return true
  | some (.decl r) =>
    return (w.declaration? r).any fun d => match d.body with
      | .const .. => true
      | _ => false
  | _ => return false

/-- The length of an array, if it is a whole number that a program can count to. -/
def arrayLength? (c : Checker) (env : Env) (e : Expr) : Check (Option Nat) := do
  let proper ← match e with
    | .ident id => namesConstant env id.name
    | _ => pure true
  if !proper then return none
  let x ← c.value env e
  let w ← world
  if x.mode == .const && (x.type.isUntyped || w.isPrimitive Primitive.isInteger x.type) then
    match x.const.int? with
    | some n => return if 0 ≤ n && Constant.inRange .int n then some n.toNat else none
    | none => return none
  else return none

/-! ## functions -/

/-- The names of a field; one without a name counts once. -/
def fieldNames (f : Field) : List String :=
  if f.names.isEmpty then [""] else f.names.map (·.name)

/-- The type of parameters without the dots in front of it. -/
def Expr.undotted : Expr → Expr
  | .ellipsis (some e) => e
  | e => e

/-- Whether the last of some parameters takes any number of arguments. -/
def isVariadic (params : List Field) : Bool :=
  match params.getLast? with
  | some (.mk names (.ellipsis (some _)) _ _) => names.length ≤ 1
  | _ => false

/-- Names with types, one for each name of some fields. -/
def namedTypes (c : Checker) (env : Env) (fs : List Field) : Check (List (String × Ty)) := do
  let parts ← fs.mapM fun f => do
    let t ← c.fullType env f.type.undotted
    return (fieldNames f).map fun n => (n, t)
  return parts.flatten

/-- Some types whose last becomes a slice. -/
def sliceLast : List Ty → List Ty
  | [] => []
  | [t] => [.slice t]
  | t :: ts => t :: sliceLast ts

/-- The type of a function with parameters and results; type parameters are already declared. -/
def functionType (c : Checker) (env : Env) (typeParams : List TypeRef) (ft : FuncType) :
    Check Ty := do
  let params ← namedTypes c env ft.params
  let results ← namedTypes c env ft.results
  let types := params.map (·.2)
  let variadic := isVariadic ft.params
  return .func typeParams (params.map (·.1)) (if variadic then sliceLast types else types) variadic
    (results.map (·.1)) (results.map (·.2))

/-- The signature of a function as declared, seen from its own package. -/
def declaredSignature (home name : String) (t : Ty) : String :=
  Signature.render name (t.parameterTypes home)

/-! ## structs -/

/-- The name under which a type is embedded.  A pointer to a pointer is not. -/
def embeddedField? : Expr → Option String
  | .star (.star _) => none
  | .star x | .index x _ => embeddedField? x
  | .selector _ sel => some sel.name
  | .ident id => some id.name
  | _ => none

/-- The text of a tag, which can have stray bytes by its escapes. -/
def tagText : Option String → RawText
  | some literal => ⟨Constant.textBytes literal⟩
  | none => ⟨[]⟩

/-- Adds a field, unless there is one of its name. -/
def addField (fs : List (FieldName × Ty)) (f : FieldName) (t : Ty) : List (FieldName × Ty) :=
  if f.name != "_" && fs.any (·.1.name == f.name) then fs else fs ++ [(f, t)]

/-- The type of a struct. -/
def structType (c : Checker) (env : Env) (fs : List Field) : Check Ty := do
  let home := env.package.path
  let fields ← fs.foldlM (fun done (f : Field) => do
    let t ← c.fullType env f.type
    match f with
    | .mk [] e tag _ =>
      match embeddedField? e with
      | some name => return addField done ⟨name, home, true, tagText tag⟩ t
      | none => return addField done ⟨"_", home, true, ⟨[]⟩⟩ .invalid
    | .mk names _ tag _ =>
      return names.foldl (fun done n => addField done ⟨n.name, home, false, tagText tag⟩ t) done) []
  return .struct (fields.map (·.1)) (fields.map (·.2))

/-! ## interfaces -/

/-- The alternatives of a constraint, with a mark on those that stand for all types made of them.  A
type parameter is none. -/
def unionTerms (c : Checker) (env : Env) : Expr → Check (List (Bool × Ty))
  | .binary "|" x y => return (← unionTerms c env x) ++ (← unionTerms c env y)
  | .unary "~" x => do return [(true, ← term x)]
  | x => do return [(false, ← term x)]
where
  /-- A type that is no type parameter. -/
  term (x : Expr) : Check Ty := do
    let t ← c.fullType env x
    return if (← world).isParam t then .invalid else t

/-- What an interface embeds. -/
def embeddedType (c : Checker) (env : Env) (e : Expr) : Check Ty := do
  match ← unionTerms c env e with
  | [(false, t)] => return t
  | terms => return .union (terms.map (·.1)) (terms.map (·.2))

/-- The type of an interface, with its methods in order. -/
def interfaceType (c : Checker) (env : Env) (fs : List Field) : Check Ty := do
  let home := env.package.path
  let (methods, embedded) ← fs.foldlM (fun (methods, embedded) (f : Field) => do
    match f with
    | .mk [id] (.func ft) _ _ =>
      if id.name == "_" then return (methods, embedded)
      let t ← functionType c env [] ft
      let m : MethodName := ⟨id.name, home, declaredSignature home id.name t, id.line⟩
      return (methods ++ [(m, t)], embedded)
    | .mk _ e _ _ => return (methods, embedded ++ [← embeddedType c env e]))
    (([] : List (MethodName × Ty)), ([] : List Ty))
  let methods := sortMethods methods
  return .interface false (methods.map (·.1)) (methods.map (·.2)) embedded

/-! ## types -/

/-- The type that an expression denotes, perhaps without its type arguments. -/
def checkType (c : Checker) (env : Env) (e : Expr) : Check Ty := do
  match e with
  | .ident id => nameType c env id
  | .selector x sel => selectorType c env x sel
  | .paren x => c.fullType env x
  | .star x =>
    let t ← c.fullType env x
    return pointerTo (← world) t
  | .index x args => instanceType c env x args
  | .array none x => return .slice (← c.fullType env x)
  | .array (some n) x =>
    let length ← arrayLength? c env n
    let t ← c.fullType env x
    match length with
    | some k => return .array k t
    | none => return .invalid
  | .map k v =>
    let key ← c.fullType env k
    return .map key (← c.fullType env v)
  | .chan dir x => return .chan dir (← c.fullType env x)
  | .func ft => functionType c env [] ft
  | .struct fs => structType c env fs
  | .interface fs => interfaceType c env fs
  | e =>
    discard (c.use env e)
    return .invalid

/-! ## type parameters -/

/-- The references of type parameters declared at a place. -/
def typeParamRefs (env : Env) (fs : List Field) : List TypeRef :=
  fs.flatMap fun f => f.names.map (typeRef env)

/-- Declares the names of type parameters. -/
def declareTypeParams (env : Env) (refs : List TypeRef) : Env :=
  refs.foldl (fun env r => env.declare r.name (.type (.param r))) env

/-- The bound that an expression denotes; alternatives are an interface of their own. -/
def boundType (c : Checker) (env : Env) (e : Expr) : Check Ty := do
  match e with
  | .unary "~" _ | .binary "|" _ _ => interfaceType c env [.mk [] e none 0]
  | e =>
    let t ← c.fullType env e
    return if (← world).isParam t then .invalid else t

/-- Works out the bounds of type parameters, whose names are declared. -/
def checkBounds (c : Checker) (env : Env) (fs : List Field) : Check Unit :=
  fs.forM fun f => do
    let t ← boundType c { env with inTypeParams := true } f.type
    modifyWorld fun w =>
      { w with bounds := (typeParamRefs env [f]).foldl (fun m r => m.insert r t) w.bounds }

end Ripple.Go
