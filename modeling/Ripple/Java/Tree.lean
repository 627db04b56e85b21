/-!
# Ripple.Java.Tree

Java code as the analysis sees it: the declarations of a compilation unit, and of each method body a
tree in source order.  Operators, literals and types are not kept in bodies, since they neither call
nor access anything.
-/

namespace Ripple.Java

/-- Why a name stands where it stands. -/
inductive NameRole where
  /-- An expression. -/
  | use
  /-- The variable that a pattern binds. -/
  | patternVariable
  /-- The record type of a pattern. -/
  | recordType
  /-- The declared name of a nested class, method or enum constant, or of a resource. -/
  | declaration
  deriving DecidableEq, Repr

/-- The constructs that matter only through their parts. -/
inductive Form where
  /-- Operands of operators, array accesses and creations, casts, conditional expressions. -/
  | operation
  | statement
  | block
  | pattern
  /-- A type, method, field or constant declared inside a body. -/
  | declaration
  deriving DecidableEq, Repr

/-- What declares a variable with a name of its own. -/
inductive Binder where
  /-- A declaration of local variables, or of fields of a nested class. -/
  | declarator
  /-- A parameter of a nested method or of a nested record. -/
  | parameter
  | catchClause
  /-- A loop over a collection, which is the value. -/
  | forEach
  /-- A resource of a try statement; the line is that of its name. -/
  | resource (line : Nat)
  deriving DecidableEq, Repr

/-- A piece of a method body. -/
inductive Tree where
  /-- A bare name. -/
  | name (role : NameRole) (id : String) (line : Nat)
  /-- The selection of a field; the line is that of the field's name. -/
  | select (object : Tree) (field : String) (line : Nat)
  /-- A method invocation, with its object if it has one. -/
  | invoke (object : Option Tree) (method : String) (line : Nat) (args : List Tree)
  /-- An object creation, with the outer object of an inner class and the body of an anonymous
  class. -/
  | create (outer : Option Tree) (type : String) (line : Nat) (args body : List Tree)
  /-- A call of another constructor of the same class (`self`) or of the superclass. -/
  | delegate (self : Bool) (outer : Option Tree) (line : Nat) (args : List Tree)
  | assign (target value : Tree)
  /-- An increment or a decrement. -/
  | update (target : Tree)
  | paren (inner : Tree)
  /-- A declared variable, with its value if it has one. -/
  | variable (binder : Binder) (id : String) (value : Option Tree)
  | lambda (parameters : List String) (body : Tree)
  /-- A type test; it may bind a name, or match a record pattern. -/
  | typeTest (value : Tree) (binding : Option String) (pattern : Option Tree)
  /-- A method reference with its qualifier, if that is an expression. -/
  | methodReference (qualifier : Option Tree)
  | labelled (label : String) (body : Tree)
  /-- A jump to a label. -/
  | jump
  | group (form : Form) (parts : List Tree)
  deriving Repr

/-- A parameter of a method or a component of a record. -/
structure Parameter where
  /-- The text of its type.  Comments between the parts of a parameter that takes any number of
  arguments count as types too. -/
  types : List String
  /-- It takes any number of arguments. -/
  spread : Bool
  name : String
  line : Nat
  deriving DecidableEq, Repr

/-- A variable of a field declaration. -/
structure Declarator where
  name : String
  line : Nat
  value : Option Tree
  deriving Repr

/-- A method or a constructor; a compact constructor has no parameters of its own. -/
structure Method where
  name : String
  nameLine : Nat
  /-- The line of its first modifier or annotation. -/
  line : Nat
  returnType : String
  parameters : List Parameter
  /-- Names in front of `this` in a receiver parameter. -/
  receiver : List (String × Nat)
  body : Option Tree
  deriving Repr

mutual

/-- A class, interface, enum, record or annotation type. -/
inductive TypeDecl where
  /-- `line` is that of its first modifier or annotation; `components` are those of a record. -/
  | mk (name : String) (nameLine line : Nat) (components : List Parameter) (members : List Member)

/-- A member of a type. -/
inductive Member where
  | fields (type : String) (declarators : List Declarator)
  | constant (name : String) (line : Nat) (args : List Tree) (body : List Member)
  | method (m : Method)
  | nested (d : TypeDecl)
  /-- An initializer block. -/
  | initializer (body : Tree)
  /-- An element of an annotation type, with its default. -/
  | element (name : String) (line : Nat) (value : Option Tree)

end

/-! ## declarations inside bodies -/

/-- A parameter of a nested method. -/
def Parameter.tree (p : Parameter) : Tree := .variable .parameter p.name none

/-- A method declared inside a body. -/
def Method.tree (m : Method) : Tree :=
  .group .declaration (.name .declaration m.name m.nameLine ::
    m.receiver.map (fun (id, line) => .name .use id line) ++
    m.parameters.map Parameter.tree ++ m.body.toList)

mutual

/-- A type declared inside a body. -/
def TypeDecl.tree : TypeDecl → Tree
  | .mk name nameLine _ components members =>
    .group .declaration (.name .declaration name nameLine ::
      components.map Parameter.tree ++ Member.trees members)

/-- A member of a type declared inside a body. -/
def Member.tree : Member → Tree
  | .fields _ ds => .group .declaration (ds.map fun d => .variable .declarator d.name d.value)
  | .constant name line args body =>
    .group .declaration (.name .declaration name line :: args ++ Member.trees body)
  | .method m => m.tree
  | .nested d => d.tree
  | .initializer body => body
  | .element name line value => .group .declaration (.name .declaration name line :: value.toList)

/-- The members of a type declared inside a body. -/
def Member.trees : List Member → List Tree
  | [] => []
  | m :: ms => m.tree :: Member.trees ms

end

end Ripple.Java
