import Ripple.Text.Search

/-!
# Ripple.Signature

A method is identified by its *signature*, the text `name(T1,T2)`: its simple name and the texts of
its parameter types.
-/

namespace Ripple.Signature

/-- The signature of a method from its name and its parameter types. -/
def render (name : String) (parameterTypes : List String) : String :=
  name ++ "(" ++ Text.join "," parameterTypes ++ ")"

/-- The simple name, which is the text before the opening parenthesis. -/
def simpleName (signature : String) : String :=
  Text.upTo '(' signature

end Ripple.Signature
