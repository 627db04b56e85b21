import Ripple.Go.Check.Call
import Ripple.Go.Size

/-!
# Ripple.Go.Check.Builtin

Calls of built-in functions.
-/

namespace Ripple.Go

/-- The least number of arguments of a built-in function, and whether it takes more. -/
def builtinArity (name : String) : Nat × Bool :=
  match name with
  | "append" | "make" | "max" | "min" => (1, true)
  | "print" | "println" => (0, true)
  | "recover" => (0, false)
  | "complex" | "copy" | "delete" | "unsafe.Add" | "unsafe.Slice" | "unsafe.String" => (2, false)
  | _ => (1, false)

/-! ## slices, maps and channels -/

namespace World

/-- The type of the elements of a slice; all types behind a type parameter must agree. -/
def sliceElement? (w : World) (t : Ty) : Option Ty := do
  let us ← w.instances t
  let es ← us.mapM fun (_, u) => match u with
    | .slice e => some e
    | _ => none
  match es with
  | [] => none
  | e :: rest => if rest.all (w.identical e) then some e else none

/-- Whether bytes can be taken from a text: the first operand is a slice of bytes, the second a
text. -/
def takesText (w : World) (x y : Operand) : Bool :=
  w.assignable x (.slice (.primitive .byte)) && w.allPrimitive Primitive.isString y.type

/-- An array, if a type is made of one or of a pointer to one; otherwise what it is made of. -/
def arrayBehind (w : World) (u : Ty) : Ty :=
  match u with
  | .pointer p =>
    match w.underlying p with
    | .array n e => .array n e
    | _ => u
  | _ => u

/-- Whether a value made of a type has a length, or with `capacity` a capacity. -/
def hasLength (w : World) (capacity : Bool) (u : Ty) : Bool :=
  match w.arrayBehind u with
  | .primitive p => p.isString && !capacity
  | .array _ _ | .slice _ | .chan _ _ => true
  | .map _ _ => !capacity
  | _ => false

/-- The length of a value.  That of a constant text is a constant, and so is that of an array for
which nothing has to be computed. -/
def lengthOf (w : World) (capacity computed : Bool) (x : Operand) : Operand :=
  let int := Ty.primitive .int
  if !w.allUnder x.type (w.hasLength capacity) then .invalid
  else
    match x.const, w.arrayBehind (w.underlying x.type) with
    | .text bs, _ => if x.mode == .const then .constant int (.int bs.length) else .value int
    | _, .array n _ => if computed then .value int else .constant int (.int n)
    | _, .primitive _ => if x.mode == .const then .constant int .unknown else .value int
    | _, _ => .value int

/-! ## numbers -/

/-- A type for each type behind another, which must all be the same. -/
def eachType? (w : World) (f : Primitive → Option Primitive) (t : Ty) : Option Ty := do
  let us ← w.instances t
  let ps ← us.mapM fun (_, u) => match u with
    | .primitive p => f p
    | _ => none
  match ps with
  | [] => none
  | p :: rest => if rest.all (· == p) && !w.isParam t then some (.primitive p) else none

/-- The complex number of two parts. -/
def complexOf (w : World) (x y : Operand) : Operand :=
  let (x, y) : Operand × Operand := match x.type.isUntyped, y.type.isUntyped with
    | false, false => (x, y)
    | true, false => (w.converted x y.type, y)
    | false, true => (x, w.converted y x.type)
    | true, true =>
      let float (x : Operand) : Operand :=
        if x.const.real?.isSome then { x with type := .primitive .untypedFloat } else x
      if x.mode == .const && y.mode == .const then (float x, float y)
      else (w.converted x (.primitive .float64), w.converted y (.primitive .float64))
  if x.isInvalid || y.isInvalid || !w.identical x.type y.type then .invalid
  else
    match w.eachType? (fun
      | .float32 => some .complex64
      | .float64 => some .complex128
      | .untypedFloat => some .untypedComplex
      | _ => none) x.type with
    | none => .invalid
    | some t =>
      if x.mode == .const && y.mode == .const then
        match x.const.real?, y.const.real? with
        | some re, some im => .constant t (.number re im)
        | _, _ => .constant t .unknown
      else .value t

/-- A part of a complex number. -/
def partOf (w : World) (imaginary : Bool) (x : Operand) : Operand :=
  let x : Operand :=
    if !x.type.isUntyped then x
    else if x.mode == .const then
      if w.isPrimitive Primitive.isNumeric x.type then
        { x with type := .primitive .untypedComplex }
      else x
    else w.converted x (.primitive .complex128)
  match w.eachType? (fun
    | .complex64 => some .float32
    | .complex128 => some .float64
    | .untypedComplex => some .untypedFloat
    | _ => none) x.type with
  | none => .invalid
  | some t =>
    if x.mode == .const then
      match x.const with
      | .number re im => .constant t (.real (if imaginary then im else re))
      | _ => .constant t .unknown
    else .value t

/-- The least or the greatest of some operands. -/
def extreme (w : World) (op : String) : List Operand → Operand
  | [] => .invalid
  | x :: rest =>
    let isOrdered (x : Operand) : Bool := w.allPrimitive Primitive.isOrdered x.type
    let best := rest.foldl (fun x y =>
      let (x, y) := w.matched x y
      if x.isInvalid || y.isInvalid || !w.identical x.type y.type then .invalid
      else if x.mode == .const && y.mode == .const then
        if y.const.comparison op x.const == .truth true then y else x
      else .value x.type) x
    if !(x :: rest).all isOrdered || best.isInvalid then .invalid
    else if best.mode == .const then best
    else w.assigned (.value best.type) (some emptyInterface)

end World

/-! ## types -/

/-- The limit of sizes. -/
def largestSize : Nat := Nat.pow 2 63

/-- A size or an alignment, which is constant unless the type is open. -/
def measured (w : World) (f : World → Ty → Nat) (x : Operand) : Operand :=
  let x := w.assigned x none
  let size := f w x.type
  if x.isInvalid then .invalid
  else if w.isOpenSized x.type then .value (.primitive .uintptr)
  else if largestSize ≤ size then .invalid
  else .constant (.primitive .uintptr) (.int size)

/-- A value made by `make`, with its sizes. -/
def checkMake (c : Checker) (env : Env) (e : Expr) (sizes : List Expr) : Check Operand := do
  let t ← c.fullType env e
  let w ← world
  let count := sizes.length
  let fits := match w.common? t with
    | some (.slice _) => count == 1 || count == 2
    | some (.map _ _) | some (.chan _ _) => count ≤ 1
    | _ => false
  if !w.isValid t || !fits then return .invalid
  else
    sizes.forM fun s => discard (indexValue? c env none s)
    return .value t

/-- A pointer made by `new` to a value of a type, or to a value. -/
def checkNew (c : Checker) (env : Env) (e : Expr) : Check Operand := do
  let x ← c.valueOrType env false e
  if x.isInvalid || x.mode == .builtin then return .invalid
  else if x.mode == .type then return .value (.pointer x.type)
  else
    let w ← world
    let x := if x.type.isUntyped then w.assigned x none else x
    return if x.isInvalid then .invalid else .value (.pointer x.type)

/-- The place of a field in its struct, which is named by a selector. -/
def checkOffset (c : Checker) (env : Env) (e : Expr) : Check Operand := do
  match e.unparen with
  | .selector y sel =>
    let x ← c.value env y
    let w ← world
    let base := match w.underlying x.type with
      | .pointer p =>
        match w.underlying p with
        | .struct .. => p
        | _ => x.type
      | _ => x.type
    match x.isInvalid, w.member? env.package.path sel.name false base with
    | false, some ⟨.field f _, false, path⟩ =>
      noteField env sel f.package
      return if w.isOpenSized base then .value (.primitive .uintptr)
        else .constant (.primitive .uintptr) (.int (w.offsetOf base path.reverse))
    | _, _ => return .invalid
  | e =>
    discard (c.use env e)
    return .invalid

/-! ## calls -/

/-- A call of a built-in function with values. -/
def applyBuiltin (w : World) (name : String) (spread computed : Bool) (xs : List Operand) :
    Operand :=
  let int := Ty.primitive .int
  let some_ (x : Operand) (r : Operand) : Operand := if x.isInvalid then .invalid else r
  match name, xs with
  | "append", x :: rest =>
    let text := spread && (match rest with
      | [y] => w.takesText x y
      | _ => false)
    if text || (w.sliceElement? x.type).isSome then .value x.type else .invalid
  | "cap", [x] => w.lengthOf true computed x
  | "len", [x] => w.lengthOf false computed x
  | "clear", [x] =>
    if w.allUnder x.type fun
      | .map _ _ | .slice _ => true
      | _ => false
    then .nothing else .invalid
  | "close", [x] =>
    if w.allUnder x.type fun
      | .chan .receive _ => false
      | .chan _ _ => true
      | _ => false
    then .nothing else .invalid
  | "complex", [x, y] => w.complexOf x y
  | "copy", [x, y] =>
    let same := match w.sliceElement? x.type, w.sliceElement? y.type with
      | some d, some s => w.identical d s
      | _, _ => false
    if w.takesText x y || same then .value int else .invalid
  | "delete", [x, k] =>
    match w.elementOf? x with
    | some ⟨_, some key, _⟩ => some_ (w.assigned k (some key)) .nothing
    | _ => .invalid
  | "imag", [x] => w.partOf true x
  | "real", [x] => w.partOf false x
  | "max", xs => w.extreme ">" xs
  | "min", xs => w.extreme "<" xs
  | "panic", [x] => some_ (w.assigned x (some emptyInterface)) .nothing
  | "print", xs | "println", xs =>
    if xs.any fun x => (w.assigned x none).isInvalid then .invalid else .nothing
  | "recover", [] => .value emptyInterface
  | "unsafe.Alignof", [x] => measured w World.alignOf x
  | "unsafe.Sizeof", [x] => measured w World.sizeOf x
  | "unsafe.Add", [x, n] =>
    if w.isIndex true n then
      some_ (w.assigned x (some (.primitive .pointer))) (.value (.primitive .pointer))
    else .invalid
  | "unsafe.Slice", [x, n] =>
    match w.common? x.type, w.isIndex false n with
    | some (.pointer e), true => .value (.slice e)
    | _, _ => .invalid
  | "unsafe.SliceData", [x] =>
    match w.common? x.type with
    | some (.slice e) => .value (.pointer e)
    | _ => .invalid
  | "unsafe.String", [x, n] =>
    if w.isIndex false n then
      some_ (w.assigned x (some (.pointer (.primitive .byte)))) (.value (.primitive .string))
    else .invalid
  | "unsafe.StringData", [x] =>
    some_ (w.assigned x (some (.primitive .string))) (.value (.pointer (.primitive .byte)))
  | _, _ => .invalid

/-- The values of some arguments; a call with several results can stand for all of them. -/
def checkValues (c : Checker) (env : Env) (es : List Expr) : Check (List Operand) := do
  match es with
  | [e] => return (← c.expr env .nothing e).values
  | es => es.mapM (c.value env)

/-- The meaning of a call of a built-in function. -/
def callBuiltin (c : Checker) (env : Env) (name : String) (args : List Expr) (spread : Bool) :
    Check Operand := do
  let (least, more) := builtinArity name
  let fits (n : Nat) : Bool := least ≤ n && (more || n ≤ least)
  let finish (x : Operand) : Check Operand := do
    if !x.isInvalid && x.mode != .const then noteCall
    return x
  if spread && name != "append" then
    c.useAll env args
    return .invalid
  match name, args with
  | "make", e :: sizes => finish (← checkMake c env e sizes)
  | "new", [e] => finish (← checkNew c env e)
  | "unsafe.Offsetof", [e] => finish (← checkOffset c env e)
  | "make", _ | "new", _ | "unsafe.Offsetof", _ => return .invalid
  | _, _ =>
    let isolated := name == "len" || name == "cap"
    let (xs, computed) ← if isolated then withCalls (checkValues c env args)
      else (fun xs => (xs, false)) <$> checkValues c env args
    if xs.any Operand.isInvalid || !fits xs.length then return .invalid
    else finish (applyBuiltin (← world) name spread computed xs)

/-! ## all calls -/

/-- The meaning of a call, of a conversion or of a built-in function. -/
def checkCall (c : Checker) (env : Env) (fn : Expr) (args : List Expr) (spread : Bool) :
    Check Operand := do
  let (f, typeArgs) ← match fn with
    | .index x es =>
      let (o, generic) ← checkIndex c env x es
      pure (o, if generic then some es else none)
    | fn => pure (← c.valueOrType env true fn, none)
  match f.mode with
  | .invalid =>
    c.useAll env args
    return .invalid
  | .type =>
    if (← world).isGeneric f.type then return .invalid
    else checkConversion c env f.type args spread
  | .builtin => callBuiltin c env f.name args spread
  | _ => callFunction c env f typeArgs args spread

end Ripple.Go
