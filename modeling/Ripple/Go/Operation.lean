import Ripple.Go.Operand

/-!
# Ripple.Go.Operation

What operators, assignments and conversions make of operands.
-/

namespace Ripple.Go

namespace World

/-- Whether an interface can be the type of a value: it is given by methods alone. -/
def isMethodSet (w : World) (t : Ty) : Bool :=
  let s := w.typeSet t
  s.terms.isNone && !s.comparable

/-! ## assignment -/

/-- An untyped operand where a type is asked for. -/
def converted (w : World) (x : Operand) (target : Ty) : Operand :=
  match w.implicit? x target with
  | some (t, v) => { x with type := t, const := v }
  | none => .invalid

/-- An operand after its assignment to a variable of a type, or to nothing that has a type. -/
def assigned (w : World) (x : Operand) (target : Option Ty) : Operand :=
  let x := x.asValue
  let typed : Operand :=
    if x.type.isUntyped then
      match target with
      | none => if x.isNil then .invalid else w.converted x x.type.default
      | some t => w.converted x (if w.isInterface t then x.type.default else t)
    else x
  let generic := match w.underlying typed.type with
    | .func (_ :: _) _ _ _ _ _ => true
    | _ => false
  if typed.isInvalid || generic then .invalid
  else
    match target with
    | none => typed
    | some t => if w.assignable typed t then typed else .invalid

/-! ## constants -/

/-- A constant after an operation.  A typed one must have a value of its type, and an untyped whole
number must not grow too large. -/
def settled (w : World) (x : Operand) : Operand :=
  match x.const, w.primitive? x.type with
  | .unknown, _ | _, none => x
  | v, some p =>
    if !p.isUntyped then
      match v.represented? p with
      | some v => { x with const := v }
      | none => .invalid
    else if p.isInteger && v.overflows then { x with const := .unknown }
    else x

/-- The meaning of a literal. -/
def literal (w : World) (kind : LiteralKind) (text : String) : Operand :=
  let p : Primitive := match kind with
    | .int => .untypedInt
    | .float => .untypedFloat
    | .imaginary => .untypedComplex
    | .rune => .untypedRune
    | .string => .untypedString
  w.settled (.constant (.primitive p) (.ofLiteral kind text))

/-! ## operators -/

/-- An operator in front of an operand. -/
def unary (w : World) (op : String) (x : Operand) : Operand :=
  let op := if op == "~" then "^" else op
  let fits : Primitive → Bool := match op with
    | "!" => Primitive.isBoolean
    | "^" => Primitive.isInteger
    | _ => Primitive.isNumeric
  if !w.allPrimitive fits x.type then .invalid
  else if x.mode == .const then
    let bits := match w.primitive? x.type with
      | some p => if p.isUnsigned then some (8 * p.size) else none
      | none => none
    if x.const == .unknown then x else w.settled { x with const := x.const.negation op bits }
  else .value x.type

/-- Whether one of two operands may take the type of the other. -/
def mayConvert (w : World) (x y : Operand) : Bool :=
  let is (p : Primitive → Bool) (x : Operand) : Bool := w.allPrimitive p x.type
  let isPointer (x : Operand) : Bool := match w.underlying x.type with
    | .pointer _ => true
    | _ => false
  if !x.type.isUntyped && !y.type.isUntyped then false
  else if w.isInterface x.type || w.isInterface y.type then true
  else if is Primitive.isBoolean x != is Primitive.isBoolean y then false
  else if is Primitive.isString x != is Primitive.isString y then false
  else if x.isNil then w.hasNil y.type
  else if y.isNil then w.hasNil x.type
  else !(isPointer x || isPointer y)

/-- Two operands of one operator, where an untyped one takes the type of the other. -/
def matched (w : World) (x y : Operand) : Operand × Operand :=
  if w.mayConvert x y then
    let x := w.converted x y.type
    if x.isInvalid then (.invalid, y) else (x, w.converted y x.type)
  else (x, y)

/-- The operators that compare. -/
def isComparison (op : String) : Bool := ["==", "!=", "<", "<=", ">", ">="].contains op

/-- A comparison of two operands. -/
def comparison (w : World) (op : String) (x y : Operand) : Operand :=
  let defined :=
    if op == "==" || op == "!=" then
      if x.isNil then w.hasNil y.type
      else if y.isNil then w.hasNil x.type
      else w.isComparable x.type && w.isComparable y.type
    else w.allPrimitive Primitive.isOrdered x.type && w.allPrimitive Primitive.isOrdered y.type
  let bool := Ty.primitive .untypedBool
  if !w.isValid x.type || !w.isValid y.type then .invalid
  else if !(w.assignable x y.type || w.assignable y x.type) || !defined then .invalid
  else if x.mode == .const && y.mode == .const then
    match x.const.comparison op y.const with
    | .unknown => .constant bool (.truth false)
    | v => .constant bool v
  else .value bool

/-- The greatest count by which a constant is shifted. -/
def largestShift : Nat := 1074

/-- An operand shifted by another. -/
def shift (w : World) (op : String) (x y : Operand) : Operand :=
  let is (p : Primitive → Bool) (x : Operand) : Bool := w.allPrimitive p x.type
  let whole (x : Operand) : Option Int := if x.mode == .const then x.const.int? else none
  let y :=
    if (whole y).any (· < 0) then .invalid
    else if y.type.isUntyped then w.converted y (.primitive .uint)
    else if is Primitive.isInteger y then y
    else .invalid
  let shifted := if w.isPrimitive Primitive.isInteger x.type then x.type else .primitive .untypedInt
  if !(is Primitive.isInteger x || (x.type.isUntyped && (whole x).isSome)) || y.isInvalid then
    .invalid
  else if x.mode == .const && y.mode == .const then
    if x.const == .unknown || y.const == .unknown then .constant shifted .unknown
    else
      match y.const.int? with
      | some n =>
        if n.toNat ≤ largestShift then w.settled (.constant shifted (x.const.shift op n.toNat))
        else .invalid
      | none => .invalid
  else if x.mode == .const && x.type.isUntyped then .value x.type
  else if is Primitive.isInteger x then .value x.type
  else .invalid

/-- Whether an operator is defined for a primitive type. -/
def isDefined (op : String) (p : Primitive) : Bool :=
  match op with
  | "+" => p.isNumeric || p.isString
  | "-" | "*" | "/" => p.isNumeric
  | "&&" | "||" => p.isBoolean
  | _ => p.isInteger

/-- An operator between two operands of one type. -/
def arithmetic (w : World) (op : String) (x y : Operand) : Operand :=
  let integers := w.allPrimitive Primitive.isInteger x.type
  let zero := y.mode == .const && (op == "/" || op == "%") && (x.mode == .const || integers) &&
    y.const == .int 0
  if !w.identical x.type y.type || !w.allPrimitive (isDefined op) x.type || zero then .invalid
  else if x.mode == .const && y.mode == .const then
    if x.const == .unknown || y.const == .unknown then { x with const := .unknown }
    else w.settled { x with const := Constant.operation integers op x.const y.const }
  else .value x.type

/-- An operator between two operands. -/
def binary (w : World) (op : String) (x y : Operand) : Operand :=
  if x.isInvalid || y.isInvalid then .invalid
  else if op == "<<" || op == ">>" then w.shift op x y
  else
    let (x, y) := w.matched x y
    if x.isInvalid || y.isInvalid then .invalid
    else if isComparison op then w.comparison op x y
    else w.arithmetic op x y

/-! ## conversion -/

/-- A constant as one of a type; the number of a character becomes a text. -/
def constantAs? (w : World) (x : Operand) : Ty → Option Constant
  | .primitive p =>
    (x.const.represented? p).or <|
      if w.isPrimitive Primitive.isInteger x.type && p.isString then x.const.int?.map .charText
      else none
  | _ => none

/-- The conversion of an operand to a type. -/
def conversion (w : World) (x : Operand) (t : Ty) : Operand :=
  if x.mode == .const && w.isPrimitive Primitive.isConstant t then
    match w.constantAs? x (w.underlying t) with
    | some v => .constant t v
    | none => .invalid
  else if x.mode == .const && w.isParam t then
    let fits (u : Ty) : Bool := (w.isPrimitive Primitive.isString x.type && w.isBytesOrRunes u) ||
      (w.constantAs? x u).isSome
    if w.allUnder t fits then .value t else .invalid
  else if w.convertible x t then .value t
  else .invalid

end World

end Ripple.Go
