/-!
# Ripple.Failure

What goes wrong, as a value.  A failure is a root cause under any number of layers; a layer adds a
text in front, and some layers carry a *code*, the stable word that callers of the query surfaces
see.

* `message` is the whole text, outermost layer first;
* `code` is the code of the outermost coded layer, `INTERNAL_ERROR` when there is none;
* `mentions c` asks for a layer with code `c` at any depth.
-/

namespace Ripple

/-- A stable word for a kind of failure. -/
abbrev Code := String

namespace Code

/-- The target is absent, or nothing is affected by it. -/
def notFound : Code := "NOT_FOUND"

/-- A rebuild was asked for while one was running. -/
def conflict : Code := "CONFLICT"

/-- A rebuild could not read its sources. -/
def ingestionFailure : Code := "INGESTION_FAILURE"

/-- A required parameter is blank or malformed. -/
def invalidParameter : Code := "INVALID_PARAMETER"

/-- Everything that carries no code of its own. -/
def internal : Code := "INTERNAL_ERROR"

end Code

/-- What a failure comes down to. -/
inductive Cause where
  | text (s : String)
  | graphFrozen
  | nodeNotFound
  | badEndpoints
  | emptyKey
  | noSources
  | cancelled
  | setting (field problem : String)
  deriving DecidableEq, Repr

/-- The text of a root cause. -/
def Cause.message : Cause → String
  | .text s => s
  | .graphFrozen => "graph is frozen and cannot be modified"
  | .nodeNotFound => "node not found"
  | .badEndpoints => "invalid edge type for endpoints"
  | .emptyKey => "node key must not be empty"
  | .noSources => "no supported source files found"
  | .cancelled => "context canceled"
  | .setting field problem => "config error in field '" ++ field ++ "': " ++ problem

/-- A root cause, or a failure under one more layer. -/
inductive Failure where
  /-- A cause with no layer over it. -/
  | root (c : Cause)
  /-- A layer of plain text. -/
  | within (context : String) (inner : Failure)
  /-- A coded failure that has no cause of its own. -/
  | coded (code : Code) (text : String)
  /-- A coded layer over another failure. -/
  | codedOver (code : Code) (text : String) (inner : Failure)
  deriving DecidableEq, Repr

namespace Failure

/-- A failure that is only a text. -/
def ofText (s : String) : Failure := .root (.text s)

/-- The whole text, outermost layer first. -/
def message : Failure → String
  | root c => c.message
  | within context inner => context ++ ": " ++ inner.message
  | coded code text => "[" ++ code ++ "] " ++ text
  | codedOver code text inner => "[" ++ code ++ "] " ++ text ++ ": " ++ inner.message

/-- The failure under the outermost layer. -/
def inner? : Failure → Option Failure
  | root _ | coded _ _ => none
  | within _ inner | codedOver _ _ inner => some inner

/-- Code and text of the outermost coded layer. -/
def outermost? : Failure → Option (Code × String)
  | root _ => none
  | within _ inner => inner.outermost?
  | coded code text | codedOver code text _ => some (code, text)

/-- The code a caller sees. -/
def code (f : Failure) : Code :=
  match f.outermost? with
  | some (c, _) => c
  | none => Code.internal

/-- Whether the code a caller sees is `c`. -/
def hasCode (f : Failure) (c : Code) : Bool :=
  f.code == c

/-- Whether some layer, at any depth, has the code `c`. -/
def mentions (c : Code) : Failure → Bool
  | root _ => false
  | within _ inner => inner.mentions c
  | coded code _ => code == c
  | codedOver code _ inner => code == c || inner.mentions c

/-- What the failure comes down to; a coded failure without a cause of its own has none. -/
def rootCause? : Failure → Option Cause
  | root c => some c
  | within _ inner | codedOver _ _ inner => inner.rootCause?
  | coded _ _ => none

end Failure

end Ripple
