import Ripple.Json.Basic
import Ripple.Tool.Catalog

/-!
# Ripple.Tool.Call

Calls of tools.  The arguments must be exactly the texts that the tool's form asks for; otherwise
the call is refused and nothing is done.  A failure of a call that was made is a result too, with
the text of the failure.
-/

namespace Ripple.Tool

/-- What a call gives. -/
structure Result where
  isError : Bool
  content : String
  deriving DecidableEq, Repr

/-- Why a call is refused. -/
inductive Refusal where
  | unknownTool
  | badArguments
  deriving DecidableEq, Repr

/-- The texts that a call was given, if they are all and only the ones asked for. -/
def arguments? (names : List String) : Json → Option (List (String × String))
  | .null => if names.isEmpty then some [] else none
  | .object members =>
    if members.all fun (k, _) => names.contains k then
      names.mapM fun name =>
        match members.lookup name with
        | some (.string s) => some (name, s)
        | _ => none
    else none
  | _ => none

/-- Calls a tool. -/
def call (renderTime : Timestamp → String) (o : Occasion) (s : Service) (name : String)
    (arguments : Json) : Except Refusal Result × Service :=
  match find? name with
  | none => (.error .unknownTool, s)
  | some tool =>
    match arguments? tool.form.parameters arguments with
    | none => (.error .badArguments, s)
    | some given =>
      match s.serve o (tool.form.request fun n => (given.lookup n).getD "") with
      | (.ok reply, s) => (.ok ⟨false, (reply.toJson renderTime).pretty⟩, s)
      | (.error f, s) => (.ok ⟨true, f.message⟩, s)

end Ripple.Tool
