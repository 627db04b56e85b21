import Ripple.Text.Search
import Ripple.Graph.Basic

/-!
# Ripple.Impact.Resemblance

Likeness by name and by type text.  These tests stand in for the resolution of types, and include
too much rather than too little.
-/

namespace Ripple

/-- What is compared of a method. -/
structure MethodView where
  name : String
  signature : String
  returnType : String
  parameterTypes : List String
  deriving DecidableEq, Repr

namespace MethodView

/-- The other method has the same simple name and another signature. -/
def isOverloadOf (candidate method : MethodView) : Bool :=
  candidate.name == method.name && candidate.signature != method.signature

/-- The other method is an overload whose signature shows the name. -/
def isVariantOf (candidate method : MethodView) : Bool :=
  candidate.isOverloadOf method && Text.contains candidate.signature method.name

/-- The return type or a parameter type shows the name of a type. -/
def refersTo (method : MethodView) (typeName : String) : Bool :=
  Text.contains method.returnType typeName ||
    method.parameterTypes.any (Text.contains · typeName)

end MethodView

/-- One of the declared types of a field shows the name of a type. -/
def fieldRefersTo (fieldTypes : List String) (typeName : String) : Bool :=
  fieldTypes.any (Text.contains · typeName)

namespace Symbol

/-- A method as it is compared with others. -/
def methodView? : Symbol → Option MethodView
  | .method signature returnType parameterTypes =>
    some ⟨Signature.simpleName signature, signature, returnType, parameterTypes⟩
  | _ => none

/-- Whether the types of a field or of a method show the name of a type. -/
def refersTo (s : Symbol) (typeName : String) : Bool :=
  match s with
  | .field _ types => fieldRefersTo types typeName
  | .method signature returnType parameterTypes =>
    MethodView.refersTo ⟨Signature.simpleName signature, signature, returnType, parameterTypes⟩
      typeName
  | .file _ _ | .type _ _ => false

end Symbol

end Ripple
