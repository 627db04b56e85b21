import Ripple.Go.Check.Index

/-!
# Ripple.Go.Check.Literal

Composite literals and function literals.
-/

namespace Ripple.Go

/-! ## composite literals -/

/-- A value of a composite literal with its key. -/
def splitKey : Expr → Option Expr × Expr
  | .keyValue k v => (some k, v)
  | v => (none, v)

/-- The values of a struct: with the names of their fields if the first has one, else in order.
What comes after too many values is not looked at. -/
def structElements (c : Checker) (env : Env) (names : List FieldName) (es : List Expr) :
    Check Unit := do
  let keyed := es.head?.any fun e => (splitKey e).1.isSome
  if keyed then
    es.forM fun
      | .keyValue k v => do
        discard (c.value env v)
        match k with
        | .ident id =>
          match names.find? fun f => sameName env.package.path id.name f.name f.package with
          | some f => if id.name != "_" then noteField env id f.package
          | none => pure ()
        | _ => pure ()
      | _ => pure ()
  else
    (es.take (names.length + 1)).forM fun
      | .keyValue _ _ => pure ()
      | v => discard (c.value env v)

/-- The values of an array or a slice; the length is one more than the greatest index. -/
def indexedElements (c : Checker) (env : Env) (element : Ty) (limit : Option Nat) (es : List Expr) :
    Check Nat := do
  let (_, length) ← es.foldlM (fun (next, length) e => do
    let (k, v) := splitKey e
    let here ← match k with
      | some k => (fun i => i.getD next) <$> indexValue? c env limit k
      | none => pure next
    discard (c.element env element v)
    return (here + 1, max length (here + 1))) (0, 0)
  return length

/-- The values of a map with their keys.  Where a key is wrong or occurs again, its value is not
looked at. -/
def mapElements (c : Checker) (env : Env) (key value : Ty) (es : List Expr) : Check Unit := do
  discard <| es.foldlM (fun (seen : List (Constant × Ty)) e => do
    match e with
    | .keyValue k v =>
      let x ← c.element env key k
      let w ← world
      let x := w.assigned x (some key)
      let again := x.mode == .const && seen.any fun (d, t) =>
        d == x.const && (!w.isInterface key || w.identical t x.type)
      if !x.isInvalid && !again then discard (c.element env value v)
      return if x.mode == .const then (x.const, x.type) :: seen else seen
    | _ => return seen) []

/-- The values of a literal without a proper type. -/
def looseElements (c : Checker) (env : Env) (es : List Expr) : Check Unit :=
  es.forM fun e => discard (c.use env (splitKey e).2)

/-- Checks the values of a composite literal of a type; `false` if there are no such literals. -/
def checkElements (c : Checker) (env : Env) (t : Ty) (es : List Expr) : Check Bool := do
  match (← world).common? t with
  | some (.struct names _) =>
    structElements c env names es
    return true
  | some (.array n e) =>
    discard (indexedElements c env e (some n) es)
    return true
  | some (.slice e) =>
    discard (indexedElements c env e none es)
    return true
  | some (.map k v) =>
    mapElements c env k v es
    return true
  | u =>
    looseElements c env es
    return u.any Ty.isInvalid

/-- The type of a composite literal that has none of its own: the one asked for, or that to which it
points. -/
def World.hinted (w : World) (hint : Ty) : Ty :=
  match w.common? hint with
  | some (.pointer e) => e
  | _ => hint

/-- The meaning of a composite literal. -/
def checkComposite (c : Checker) (env : Env) (hint : Option Ty) (type : Option Expr)
    (es : List Expr) : Check Operand := do
  match type with
  | some (.array (some (.ellipsis none)) e) =>
    let element ← c.fullType env e
    let n ← indexedElements c env element none es
    return .value (.array n element)
  | _ =>
    let t ← match type with
      | some e => c.fullType env e
      | none => pure (hint.getD .invalid)
    let w ← world
    let proper ← checkElements c env (if type.isNone then w.hinted t else t) es
    return if proper then .value t else .invalid

/-! ## function literals -/

/-- Declares the parameters and results of a function of a type. -/
def declareParameters (env : Env) : Ty → Env
  | .func _ names params _ resultNames results =>
    ((names ++ resultNames).zip (params ++ results)).foldl
      (fun env (n, t) => env.declare n (.variable t)) env
  | _ => env

/-- The place inside a function of a type. -/
def Env.insideFunction (env : Env) (t : Ty) : Env :=
  { declareParameters env t with inTypeParams := false, outside := false }

/-- Checks a function body now, without a trace of its calls. -/
def checkBody (c : Checker) (env : Env) (body : List Stmt) : Check Unit :=
  discard (withCalls (c.stmts env body))

/-- The meaning of a function literal.  Outside functions its body is put off, since it may refer to
what is being declared. -/
def checkFuncLit (c : Checker) (env : Env) (ft : FuncType) (body : List Stmt) : Check Operand := do
  let t ← functionType c env [] ft
  let inner := env.push.insideFunction t
  if env.outside then putOff (.body inner body) else checkBody c inner body
  return .value t

end Ripple.Go
