import Ripple.Signature

/-!
# Ripple.Java.Facts

What a Java source says about its types: their fields, their methods, and the calls and accesses of
each method body.  Calls and accesses are not resolved: a call has a name and a number of arguments,
an access a name.
-/

namespace Ripple.Java

/-- A call by name, not yet resolved. -/
structure Call where
  name : String
  args : Int
  line : Int
  deriving DecidableEq, Repr

/-- A read or a write of a field by name. -/
structure Access where
  name : String
  line : Int
  deriving DecidableEq, Repr

/-- A declared field. -/
structure FieldFacts where
  name : String
  type : String
  line : Int
  deriving DecidableEq, Repr

/-- A declared method or constructor with what its body does. -/
structure MethodFacts where
  name : String
  params : List String
  returnType : String
  line : Int
  calls : List Call
  reads : List Access
  writes : List Access
  deriving DecidableEq, Repr

/-- A declared type. -/
structure ClassFacts where
  name : String
  line : Int
  fields : List FieldFacts
  methods : List MethodFacts
  deriving DecidableEq, Repr

/-- A source file with its types. -/
structure FileFacts where
  path : String
  classes : List ClassFacts
  deriving DecidableEq, Repr

/-- The signature under which a method is known. -/
def MethodFacts.signature (m : MethodFacts) : String := Signature.render m.name m.params

end Ripple.Java
