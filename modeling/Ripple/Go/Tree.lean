/-!
# Ripple.Go.Tree

Go source files as trees.  Types are expressions too, since the grammar cannot always tell them
apart.  The position of a name among the tokens of its file identifies it.
-/

namespace Ripple.Go

/-- A name where it stands. -/
structure Ident where
  name : String
  line : Nat
  index : Nat
  deriving DecidableEq, Repr, Inhabited

/-- The kinds of literal. -/
inductive LiteralKind where
  | int
  | float
  | imaginary
  | rune
  | string
  deriving DecidableEq, Repr

/-- What a channel type allows. -/
inductive ChanDir where
  | both
  | send
  | receive
  deriving DecidableEq, Repr

mutual

/-- An expression or a type. -/
inductive Expr where
  | ident (id : Ident)
  | literal (kind : LiteralKind) (text : String)
  | funcLit (type : FuncType) (body : List Stmt)
  /-- A composite literal; inside another one its type may be left out. -/
  | composite (type : Option Expr) (elements : List Expr)
  | keyValue (key value : Expr)
  | paren (inner : Expr)
  | selector (x : Expr) (sel : Ident)
  /-- An index, or an instantiation with type arguments. -/
  | index (x : Expr) (args : List Expr)
  | slice (x : Expr) (low high max : Option Expr)
  /-- A type assertion; without a type it is the subject of a type switch. -/
  | assertion (x : Expr) (type : Option Expr)
  /-- A call or a conversion; the line and position are those of its opening bracket. -/
  | call (fn : Expr) (args : List Expr) (spread : Bool) (line index : Nat)
  | star (x : Expr)
  | unary (op : String) (x : Expr)
  | binary (op : String) (x y : Expr)
  /-- Dots before a type, or alone as the length of an array. -/
  | ellipsis (element : Option Expr)
  /-- An array type, or a slice type if it has no length. -/
  | array (length : Option Expr) (element : Expr)
  | struct (fields : List Field)
  | func (type : FuncType)
  /-- An interface; a method is a field of one name and a function type. -/
  | interface (elements : List Field)
  | map (key value : Expr)
  | chan (dir : ChanDir) (element : Expr)

/-- Type parameters, parameters and results of a function. -/
inductive FuncType where
  | mk (typeParams params results : List Field)

/-- Names with a type; no names if a field is embedded or a parameter has none. -/
inductive Field where
  /-- `line` is where it starts. -/
  | mk (names : List Ident) (type : Expr) (tag : Option String) (line : Nat)

/-- A statement. -/
inductive Stmt where
  | expr (x : Expr)
  | send (channel value : Expr)
  | incDec (x : Expr)
  /-- A definition (`:=`), a plain assignment (`=`) or one with an operator. -/
  | assign (op : String) (lhs rhs : List Expr)
  /-- The start of a goroutine, or a deferred call. -/
  | start (call : Expr)
  | result (values : List Expr)
  | jump
  | block (body : List Stmt)
  | branch (init : Option Stmt) (cond : Expr) (body : List Stmt) (other : Option Stmt)
  | switch (init : Option Stmt) (tag : Option Expr) (clauses : List Clause)
  /-- A switch on the type of a value, which each clause may see under a name. -/
  | typeSwitch (init : Option Stmt) (name : Option Ident) (subject : Expr) (clauses : List Clause)
  | select (clauses : List Clause)
  | loop (init : Option Stmt) (cond : Option Expr) (post : Option Stmt) (body : List Stmt)
  /-- A loop over a value; `define` says whether it declares its variables. -/
  | range (key value : Option Expr) (define : Bool) (x : Expr) (body : List Stmt)
  | decl (specs : List Spec)
  | labelled (body : Stmt)

/-- A clause of a switch or of a select, in which a communication stands first. -/
inductive Clause where
  | mk (comm : Option Stmt) (exprs : List Expr) (body : List Stmt)

/-- One declaration of constants, variables or a type. -/
inductive Spec where
  /-- `iota` counts the specifications of a group; type and values are inherited from the
  specification before if it has none. -/
  | const (names : List Ident) (type : Option Expr) (values : List Expr) (iota : Nat)
  | var (names : List Ident) (type : Option Expr) (values : List Expr)
  | type (name : Ident) (typeParams : List Field) (isAlias : Bool) (type : Expr)

end

instance : Inhabited Expr := ⟨.ellipsis none⟩

/-- The names of a field. -/
def Field.names : Field → List Ident
  | .mk names _ _ _ => names

/-- The type of a field. -/
def Field.type : Field → Expr
  | .mk _ type _ _ => type

/-- The type parameters of a function. -/
def FuncType.typeParams : FuncType → List Field
  | .mk typeParams _ _ => typeParams

/-- The parameters of a function. -/
def FuncType.params : FuncType → List Field
  | .mk _ params _ => params

/-- The results of a function. -/
def FuncType.results : FuncType → List Field
  | .mk _ _ results => results

/-- An expression without the brackets around it. -/
def Expr.unparen : Expr → Expr
  | .paren inner => inner.unparen
  | e => e

/-- An import of a package, perhaps under another name. -/
structure Import where
  name : Option String
  path : String
  deriving Repr

/-- A function or a method. -/
structure FuncDecl where
  /-- The receiver of a method. -/
  receiver : Option Field
  name : Ident
  type : FuncType
  body : Option (List Stmt)

/-- A declaration at the top of a file. -/
inductive Decl where
  | specs (specs : List Spec)
  | func (f : FuncDecl)

/-- A source file. -/
structure SourceFile where
  path : String
  /-- The file under which it is reported; directives can change it. -/
  name : String
  /-- The minor version of the language that its first comments ask for. -/
  version : Option Nat
  /-- The number of its tokens. -/
  size : Nat
  package : Ident
  /-- The line of the keyword `package`. -/
  line : Nat
  imports : List Import
  decls : List Decl

end Ripple.Go
