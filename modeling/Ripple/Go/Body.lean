import Ripple.Go.Resolution

/-!
# Ripple.Go.Body

What a function body does: calls of functions of the project, reads and writes of fields, in the
order in which they stand.  A call or a selection comes before what it is applied to.
-/

namespace Ripple.Go

/-- Something that a function body does. -/
inductive Event where
  | call (signature : String) (line : Nat)
  | read (field : String) (line : Nat)
  | write (field : String) (line : Nat)
  deriving DecidableEq, Repr

/-- How a statement uses an operand. -/
inductive Use where
  | read
  | write
  | update
  deriving DecidableEq, Repr

/-- The use of the left side of an assignment: with an operator it reads as well. -/
def assignUse (op : String) : Use := if op == "=" || op == ":=" then .write else .update

/-- The accesses of a selected name, if it stands for a field. -/
def Resolution.access (r : Resolution) (use : Use) (id : Ident) : List Event :=
  if r.fields.contains id.index then
    match use with
    | .read => [.read id.name id.line]
    | .write => [.write id.name id.line]
    | .update => [.read id.name id.line, .write id.name id.line]
  else []

/-- The name that a called expression goes by; type arguments are looked through. -/
def Expr.callee? : Expr → Option Ident
  | .paren x => x.callee?
  | .index x _ => x.calledName?
  | x => x.calledName?

/-- The call of a function of the project. -/
def Resolution.call (r : Resolution) (fn : Expr) (line : Nat) : List Event :=
  match fn.callee?.bind fun id => r.functions[id.index]? with
  | some s => [.call s line]
  | none => []

/-- The field that a value of a composite literal sets by its name. -/
def Resolution.keyWrite (r : Resolution) : Expr → List Event
  | .keyValue (.ident id) _ => r.access .write id
  | _ => []

mutual

/-- What an expression does; `use` is how its value is used. -/
def Expr.events (r : Resolution) (use : Use) : Expr → List Event
  | .ident _ | .literal _ _ => []
  | .funcLit type body => type.events r ++ Stmt.eventsAll r body
  | .composite type es =>
    es.flatMap r.keyWrite ++ Expr.eventsOf? r type ++ Expr.eventsAll r .read es
  | .keyValue k v => k.events r .read ++ v.events r .read
  | .paren x => x.events r use
  | .selector x sel => r.access use sel ++ x.events r .read
  | .index x args => x.events r .read ++ Expr.eventsAll r .read args
  | .slice x low high max =>
    x.events r .read ++ Expr.eventsOf? r low ++ Expr.eventsOf? r high ++ Expr.eventsOf? r max
  | .assertion x type => x.events r .read ++ Expr.eventsOf? r type
  | .call fn args _ line _ =>
    r.call fn line ++ fn.events r .read ++ Expr.eventsAll r .read args
  | .star x => x.events r .read
  | .unary _ x => x.events r .read
  | .binary _ x y => x.events r .read ++ y.events r .read
  | .ellipsis x => Expr.eventsOf? r x
  | .array n x => Expr.eventsOf? r n ++ x.events r .read
  | .struct fields => Field.eventsAll r fields
  | .func type => type.events r
  | .interface elements => Field.eventsAll r elements
  | .map k v => k.events r .read ++ v.events r .read
  | .chan _ x => x.events r .read

/-- What an expression does, if there is one. -/
def Expr.eventsOf? (r : Resolution) : Option Expr → List Event
  | none => []
  | some x => x.events r .read

/-- What some expressions do. -/
def Expr.eventsAll (r : Resolution) (use : Use) : List Expr → List Event
  | [] => []
  | x :: xs => x.events r use ++ Expr.eventsAll r use xs

/-- What the types in a signature do. -/
def FuncType.events (r : Resolution) : FuncType → List Event
  | .mk typeParams params results =>
    Field.eventsAll r typeParams ++ Field.eventsAll r params ++ Field.eventsAll r results

/-- What the types of some fields do. -/
def Field.eventsAll (r : Resolution) : List Field → List Event
  | [] => []
  | .mk _ type _ _ :: fs => type.events r .read ++ Field.eventsAll r fs

/-- What a statement does. -/
def Stmt.events (r : Resolution) : Stmt → List Event
  | .expr x | .start x => x.events r .read
  | .send x y => x.events r .read ++ y.events r .read
  | .incDec x => x.events r .update
  | .assign op lhs rhs => Expr.eventsAll r (assignUse op) lhs ++ Expr.eventsAll r .read rhs
  | .result xs => Expr.eventsAll r .read xs
  | .jump => []
  | .block body => Stmt.eventsAll r body
  | .branch init cond body other =>
    Stmt.eventsOf? r init ++ cond.events r .read ++ Stmt.eventsAll r body ++
      Stmt.eventsOf? r other
  | .switch init tag clauses =>
    Stmt.eventsOf? r init ++ Expr.eventsOf? r tag ++ Clause.eventsAll r clauses
  | .typeSwitch init _ subject clauses =>
    Stmt.eventsOf? r init ++ subject.events r .read ++ Clause.eventsAll r clauses
  | .select clauses => Clause.eventsAll r clauses
  | .loop init cond post body =>
    Stmt.eventsOf? r init ++ Expr.eventsOf? r cond ++ Stmt.eventsOf? r post ++
      Stmt.eventsAll r body
  | .range key value _ x body =>
    Expr.eventsOf? r key ++ Expr.eventsOf? r value ++ x.events r .read ++ Stmt.eventsAll r body
  | .decl specs => Spec.eventsAll r specs
  | .labelled body => body.events r

/-- What a statement does, if there is one. -/
def Stmt.eventsOf? (r : Resolution) : Option Stmt → List Event
  | none => []
  | some s => s.events r

/-- What some statements do. -/
def Stmt.eventsAll (r : Resolution) : List Stmt → List Event
  | [] => []
  | s :: ss => s.events r ++ Stmt.eventsAll r ss

/-- What some clauses do. -/
def Clause.eventsAll (r : Resolution) : List Clause → List Event
  | [] => []
  | .mk comm exprs body :: cs =>
    Stmt.eventsOf? r comm ++ Expr.eventsAll r .read exprs ++ Stmt.eventsAll r body ++
      Clause.eventsAll r cs

/-- What some local declarations do. -/
def Spec.eventsAll (r : Resolution) : List Spec → List Event
  | [] => []
  | .const _ type values _ :: ss | .var _ type values :: ss =>
    Expr.eventsOf? r type ++ Expr.eventsAll r .read values ++ Spec.eventsAll r ss
  | .type _ typeParams _ type :: ss =>
    Field.eventsAll r typeParams ++ type.events r .read ++ Spec.eventsAll r ss

end

end Ripple.Go
