/-!
# Ripple.Go.Primitive

The predeclared types that are made of no other types, and those of untyped constants.  `byte` and
`rune` are other names of `uint8` and `int32`.
-/

namespace Ripple.Go

/-- A predeclared type, or the type of an untyped constant or of `nil`. -/
inductive Primitive where
  | bool
  | int
  | int8
  | int16
  | int32
  | int64
  | uint
  | uint8
  | uint16
  | uint32
  | uint64
  | uintptr
  | float32
  | float64
  | complex64
  | complex128
  | string
  | byte
  | rune
  /-- A pointer to something of any type. -/
  | pointer
  | untypedBool
  | untypedInt
  | untypedRune
  | untypedFloat
  | untypedComplex
  | untypedString
  | untypedNil
  deriving DecidableEq, Repr, Inhabited

namespace Primitive

/-- The predeclared types by their names. -/
def named : List (String × Primitive) :=
  [("bool", bool), ("int", int), ("int8", int8), ("int16", int16), ("int32", int32),
    ("int64", int64), ("uint", uint), ("uint8", uint8), ("uint16", uint16), ("uint32", uint32),
    ("uint64", uint64), ("uintptr", uintptr), ("float32", float32), ("float64", float64),
    ("complex64", complex64), ("complex128", complex128), ("string", string), ("byte", byte),
    ("rune", rune)]

/-- The name of a type; no type of the language has a name with a blank. -/
def name : Primitive → String
  | bool => "bool"
  | int => "int"
  | int8 => "int8"
  | int16 => "int16"
  | int32 => "int32"
  | int64 => "int64"
  | uint => "uint"
  | uint8 => "uint8"
  | uint16 => "uint16"
  | uint32 => "uint32"
  | uint64 => "uint64"
  | uintptr => "uintptr"
  | float32 => "float32"
  | float64 => "float64"
  | complex64 => "complex64"
  | complex128 => "complex128"
  | string => "string"
  | byte => "byte"
  | rune => "rune"
  | pointer => "unsafe.Pointer"
  | untypedBool => "untyped bool"
  | untypedInt => "untyped int"
  | untypedRune => "untyped rune"
  | untypedFloat => "untyped float"
  | untypedComplex => "untyped complex"
  | untypedString => "untyped string"
  | untypedNil => "untyped nil"

/-- The same type under its main name. -/
def plain : Primitive → Primitive
  | byte => uint8
  | rune => int32
  | p => p

/-- Whether a type belongs to constants without a type, or to `nil`. -/
def isUntyped : Primitive → Bool
  | untypedBool | untypedInt | untypedRune | untypedFloat | untypedComplex | untypedString
  | untypedNil => true
  | _ => false

/-- Whether a type has truth values. -/
def isBoolean : Primitive → Bool
  | bool | untypedBool => true
  | _ => false

/-- Whether a type has texts. -/
def isString : Primitive → Bool
  | string | untypedString => true
  | _ => false

/-- Whether a type has whole numbers without a sign. -/
def isUnsigned : Primitive → Bool
  | uint | uint8 | uint16 | uint32 | uint64 | uintptr | byte => true
  | _ => false

/-- Whether a type has whole numbers. -/
def isInteger : Primitive → Bool
  | int | int8 | int16 | int32 | int64 | rune | untypedInt | untypedRune => true
  | p => p.isUnsigned

/-- Whether a type has real numbers. -/
def isFloat : Primitive → Bool
  | float32 | float64 | untypedFloat => true
  | _ => false

/-- Whether a type has complex numbers. -/
def isComplex : Primitive → Bool
  | complex64 | complex128 | untypedComplex => true
  | _ => false

/-- Whether a type has numbers. -/
def isNumeric (p : Primitive) : Bool := p.isInteger || p.isFloat || p.isComplex

/-- Whether the values of a type have an order. -/
def isOrdered (p : Primitive) : Bool := p.isInteger || p.isFloat || p.isString

/-- Whether a constant can have a type. -/
def isConstant (p : Primitive) : Bool := p.isBoolean || p.isNumeric || p.isString

/-- The number of bytes of a value, where a word has eight. -/
def size : Primitive → Nat
  | bool | int8 | uint8 | byte => 1
  | int16 | uint16 => 2
  | int32 | uint32 | float32 | rune => 4
  | string | complex128 => 16
  | _ => 8

/-- The type that an untyped value has where none is asked for; `nil` has none. -/
def default : Primitive → Primitive
  | untypedBool => bool
  | untypedInt => int
  | untypedRune => rune
  | untypedFloat => float64
  | untypedComplex => complex128
  | untypedString => string
  | p => p

/-- The order in which the types of untyped numbers include one another. -/
def rank : Primitive → Nat
  | untypedInt => 1
  | untypedRune => 2
  | untypedFloat => 3
  | untypedComplex => 4
  | _ => 0

end Primitive

end Ripple.Go
