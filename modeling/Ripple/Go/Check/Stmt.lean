import Ripple.Go.Check.Range

/-!
# Ripple.Go.Check.Stmt

Statements.  A declaration is seen by what follows it in its block.
-/

namespace Ripple.Go

/-- Checks a statement if there is one. -/
def checkOptional (c : Checker) (env : Env) : Option Stmt → Check Env
  | some s => c.stmt env s
  | none => pure env

/-! ## clauses -/

/-- The clauses of a switch on a value. -/
def switchClauses (c : Checker) (env : Env) (clauses : List Clause) : Check Unit :=
  clauses.forM fun
    | .mk _ exprs body => do
      exprs.forM fun e => discard (c.value env e)
      c.block env body

/-- The type of a clause of a type switch; `nil` is no type. -/
def clauseType (c : Checker) (env : Env) (e : Expr) : Check (Option Ty) := do
  match e.unparen with
  | .ident id =>
    match env.find? (← world) id.name with
    | some (.object .absent) => return none
    | _ => some <$> c.fullType env e
  | _ => some <$> c.fullType env e

/-- The clauses of a switch on a type.  In a clause with one type the name has that type. -/
def typeSwitchClauses (c : Checker) (env : Env) (name : Option Ident) (subject : Ty)
    (clauses : List Clause) : Check Unit :=
  clauses.forM fun
    | .mk _ exprs body => do
      let types ← exprs.mapM (clauseType c env)
      let t := match types with
        | [some t] => t
        | _ => subject
      let inner := match name with
        | some id => env.push.declare id.name (.variable t)
        | none => env.push
      discard (c.stmts inner body)

/-- Whether an expression receives from a channel. -/
def Expr.isReceipt (e : Expr) : Bool :=
  match e.unparen with
  | .unary "<-" _ => true
  | _ => false

/-- Whether a statement communicates, as a clause of a select statement must. -/
def Stmt.isCommunication : Stmt → Bool
  | .send _ _ => true
  | .expr x => x.isReceipt
  | .assign _ _ [x] => x.isReceipt
  | _ => false

/-- The clauses of a select statement.  One that does not communicate is not looked at. -/
def selectClauses (c : Checker) (env : Env) (clauses : List Clause) : Check Unit :=
  clauses.forM fun
    | .mk comm _ body => do
      if comm.all Stmt.isCommunication then
        let inner ← checkOptional c env.push comm
        discard (c.stmts inner body)

/-! ## assignments -/

/-- The type of the left side of an assignment; the blank name has none. -/
def targetType? (c : Checker) (env : Env) (e : Expr) : Check (Option Ty) := do
  match e.unparen with
  | .ident id =>
    if id.name == "_" then return none
    else return some (← c.value env (.ident id)).type
  | _ => return some (← c.value env e).type

/-- Checks an assignment.  One with an operator has one expression on each side. -/
def checkAssign (c : Checker) (env : Env) (op : String) (lhs rhs : List Expr) : Check Unit := do
  if op == "=" then
    let types ← lhs.mapM (targetType? c env)
    if lhs.length = rhs.length then
      (types.zip rhs).forM fun (t, e) => discard (c.valueFor env t e)
    else c.useAll env rhs
  else
    match lhs, rhs with
    | [x], [y] =>
      discard (c.value env x)
      discard (c.value env y)
    | _, _ => pure ()

/-! ## statements -/

/-- Checks a statement and gives the place after it. -/
def checkStmt (c : Checker) (env : Env) (s : Stmt) : Check Env := do
  match s with
  | .assign ":=" lhs rhs => defineVariables c env lhs rhs
  | .decl specs => specs.foldlM (declareSpec c) env
  | .labelled body => c.stmt env body
  | .assign op lhs rhs =>
    checkAssign c env op lhs rhs
    return env
  | .expr x | .incDec x | .start x =>
    discard (c.expr env .nothing x)
    return env
  | .send x y =>
    discard (c.value env x)
    discard (c.value env y)
    return env
  | .result values =>
    c.useAll env values
    return env
  | .jump => return env
  | .block body =>
    c.block env body
    return env
  | .branch init cond body other =>
    let inner ← checkOptional c env.push init
    discard (c.value inner cond)
    c.block inner body
    discard (checkOptional c inner other)
    return env
  | .switch init tag clauses =>
    let inner ← checkOptional c env.push init
    tag.forM fun t => discard (c.value inner t)
    switchClauses c inner clauses
    return env
  | .typeSwitch init name subject clauses =>
    let inner ← checkOptional c env.push init
    let x ← c.value inner subject
    let t := if (← world).isInterface x.type then x.type else .invalid
    typeSwitchClauses c inner name t clauses
    return env
  | .select clauses =>
    selectClauses c env clauses
    return env
  | .loop init cond post body =>
    let inner ← checkOptional c env.push init
    cond.forM fun x => discard (c.value inner x)
    discard (checkOptional c inner post)
    c.block inner body
    return env
  | .range key value define x body =>
    checkRange c env key value define x body
    return env

/-! ## expressions -/

/-- The meaning of an expression, which may be a generic function or type. -/
def checkAny (c : Checker) (env : Env) (wanted : Wanted) (e : Expr) : Check Operand := do
  match e with
  | .ident id => checkName c env id
  | .literal kind text => return (← world).literal kind text
  | .funcLit ft body => checkFuncLit c env ft body
  | .composite type es => checkComposite c env wanted.hint type es
  | .paren x => c.expr env .nothing x
  | .selector x sel => checkSelector c env x sel
  | .index x args => checkIndexed c env wanted x args
  | .slice x low high max => checkSlice c env x low high max
  | .assertion x type => checkAssertion c env x type
  | .call fn args spread _ _ => checkCall c env fn args spread
  | .star x => checkStar c env x
  | .unary op x => checkUnary c env op x
  | .binary op x y => checkBinary c env op x y
  | .keyValue _ _ | .ellipsis _ => return .invalid
  | e => return .of .type (← c.fullType env e)

/-- The meaning of an expression. -/
def checkExpr (c : Checker) (env : Env) (wanted : Wanted) (e : Expr) : Check Operand := do
  let x ← checkAny c env wanted e
  let w ← world
  return if wanted.generic then x else w.nonGeneric wanted.target x

end Ripple.Go
