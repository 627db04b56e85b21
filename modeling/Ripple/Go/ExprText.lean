import Ripple.Go.Type

/-!
# Ripple.Go.ExprText

Expressions as text in one fixed form: function bodies and the values of composite literals are left
out, tags are dropped, and blanks stand where the form wants them.
-/

namespace Ripple.Go

mutual

/-- An expression or a type as text. -/
def Expr.text : Expr → String
  | .ident id => id.name
  | .literal _ text => text
  | .funcLit type _ => "(func" ++ type.text ++ " literal)"
  | .composite type elements =>
    Expr.textOf? type ++ "\x7b" ++ (if elements.isEmpty then "" else "…") ++ "\x7d"
  | .keyValue key value => key.text ++ ": " ++ value.text
  | .paren inner => "(" ++ inner.text ++ ")"
  | .selector x sel => x.text ++ "." ++ sel.name
  | .index x args => x.text ++ "[" ++ Text.join ", " (Expr.texts args) ++ "]"
  | .slice x low high max =>
    x.text ++ "[" ++ Expr.textOf? low ++ ":" ++ Expr.textOf? high ++
      (if max.isSome then ":" else "") ++ Expr.textOf? max ++ "]"
  | .assertion x none => x.text ++ ".(type)"
  | .assertion x (some t) => x.text ++ ".(" ++ t.text ++ ")"
  | .call fn args spread _ _ =>
    fn.text ++ "(" ++ Text.join ", " (Expr.texts args) ++ (if spread then "...)" else ")")
  | .star x => "*" ++ x.text
  | .unary op x => op ++ x.text
  | .binary op x y => x.text ++ " " ++ op ++ " " ++ y.text
  | .ellipsis element => "..." ++ Expr.textOf? element
  | .array length element => "[" ++ Expr.textOf? length ++ "]" ++ element.text
  | .struct fields => "struct\x7b" ++ Text.join "; " (Field.texts false fields) ++ "\x7d"
  | .func type => "func" ++ type.text
  | .interface elements => "interface\x7b" ++ Text.join "; " (Field.texts true elements) ++ "\x7d"
  | .map key value => "map[" ++ key.text ++ "]" ++ value.text
  | .chan dir element => dir.text ++ element.text

/-- An expression as text, if there is one. -/
def Expr.textOf? : Option Expr → String
  | none => ""
  | some e => e.text

/-- Some expressions as text. -/
def Expr.texts : List Expr → List String
  | [] => []
  | e :: es => e.text :: Expr.texts es

/-- The parameters and results of a function as text. -/
def FuncType.text : FuncType → String
  | .mk _ params results =>
    let head := "(" ++ Text.join ", " (Field.texts false params) ++ ")"
    match results with
    | [] => head
    | [.mk [] type _ _] => head ++ " " ++ type.text
    | rs => head ++ " (" ++ Text.join ", " (Field.texts false rs) ++ ")"

/-- A field as text; `method` says whether a function type stands for a method. -/
def Field.text (method : Bool) : Field → String
  | .mk names type _ _ =>
    let ids := Text.join ", " (names.map (·.name))
    let body := type.text
    match method, type with
    | true, .func _ => ids ++ dropFront 4 body
    | _, _ => if names.isEmpty then body else ids ++ " " ++ body

/-- Some fields as text. -/
def Field.texts (method : Bool) : List Field → List String
  | [] => []
  | f :: fs => f.text method :: Field.texts method fs

end

end Ripple.Go
