import Ripple.Go.Meaning

/-!
# Ripple.Go.Containment

Types whose values would contain values of the same type, and so have no end.
-/

namespace Ripple.Go

namespace World

/-- Looks for a type that contains itself.  `nest` are the declared types around the one at hand,
the innermost first.  An error names a declared type that contains itself, or none if something
inside cannot be resolved anyway. -/
def containment (w : World) : Nat → List Ty → Ty → Except (Option TypeRef) Unit
  | 0, _, _ => .ok ()
  | fuel + 1, nest, t =>
    match w.resolved t with
    | .array _ e => w.containment fuel nest e
    | .struct _ types | .union _ types => types.forM (w.containment fuel nest)
    | .interface _ _ _ embedded => embedded.forM (w.containment fuel nest)
    | .named ref args =>
      if (w.underlying (.named ref args)).isInvalid then .error none
      else if nest.any (w.identical (.named ref args)) then .error (some ref)
      else
        match (w.types[ref]?).bind (·.rhs) with
        | some rhs => w.containment fuel (.named ref args :: nest) rhs
        | none => .ok ()
    | .param r =>
      match nest with
      | .named ref args :: outer =>
        let params := ((w.types[ref]?).map (·.params)).getD []
        match (params.zip args).lookup r with
        | some arg => w.containment fuel outer arg
        | none => .ok ()
      | _ => .ok ()
    | _ => .ok ()

/-- Marks the declared type that contains itself, if there is one in a type; it is made of
nothing. -/
def checkContainment (w : World) (t : Ty) : World :=
  match w.resolved t with
  | .named ref args =>
    match w.containment (256 * w.depth) [] (.named ref args) with
    | .error (some r) =>
      let types := w.types.modify r fun i => { i with sound := false }
      { w with types }
    | _ => w
  | _ => w

end World

end Ripple.Go
