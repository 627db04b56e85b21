import Ripple.Go.Check.Assign

/-!
# Ripple.Go.Check.Range

Loops over values.
-/

namespace Ripple.Go

/-- The types of key and value in a loop over a function: those of the parameters of the function
that it is given. -/
def World.yieldTypes (w : World) (params results : List Ty) : List Ty :=
  match params, results with
  | [p], [] =>
    match w.common? p with
    | some (.func _ _ ts _ _ [r]) =>
      if ts.length ≤ 2 && w.identical r (.primitive .bool) then ts else []
    | _ => []
  | _, _ => []

/-- The types of key and value in a loop over a type, as far as there are some. -/
def World.rangeTypes (w : World) (version : Nat) (t : Ty) : List Ty :=
  let int := Ty.primitive .int
  match (w.common? t).map w.arrayBehind with
  | some (.primitive p) =>
    if p.isString then [int, .primitive .rune]
    else if p.isInteger && 22 ≤ version then [t]
    else []
  | some (.array _ e) | some (.slice e) => [int, e]
  | some (.map k v) => [k, v]
  | some (.chan d e) => if d == .send then [] else [e]
  | some (.func _ _ params _ _ results) =>
    if 23 ≤ version then w.yieldTypes params results else []
  | _ => []

/-- Checks a loop over a value.  Its variables are new, or expressions, which are looked at only if
there is something for them. -/
def checkRange (c : Checker) (env : Env) (key value : Option Expr) (define : Bool) (e : Expr)
    (body : List Stmt) : Check Unit := do
  let x ← c.value env e
  let w ← world
  let types := if x.isInvalid then [] else w.rangeTypes env.file.version x.type
  let inner ← [key, value].zipIdx.foldlM (fun (inner : Env) (target, i) => do
    let t := types.getD i .invalid
    match target, define with
    | some (.ident id), true =>
      return inner.declare id.name (.variable (w.initialType (.value t) none))
    | some target, false =>
      if w.isValid t then discard (c.use inner target)
      return inner
    | _, _ => return inner) env.push
  c.block inner body

end Ripple.Go
