import Ripple.Go.Operand

/-!
# Ripple.Go.Infer

Type arguments of calls of generic functions.  The types of parameters are matched against those of
the arguments, then type parameters against their bounds for as long as that finds more, and last
untyped constants give their default types.
-/

namespace Ripple.Go

/-- What is known of the type parameters that are sought.  Parameters that were found to be the same
share a class. -/
structure Unifier where
  classes : List (TypeRef × Nat)
  found : List (Nat × Ty)

namespace Unifier

/-- Some parameters, for some of which a type is given. -/
def start (params : List TypeRef) (args : List (Option Ty)) : Unifier where
  classes := params.zipIdx
  found := (args.zipIdx).filterMap fun (t, i) => t.map fun t => (i, t)

/-- The class of a parameter, if it is sought. -/
def class? (u : Unifier) (ref : TypeRef) : Option Nat := u.classes.lookup ref

/-- The type found for a parameter. -/
def type? (u : Unifier) (ref : TypeRef) : Option Ty := (u.class? ref).bind fun c => u.found.lookup c

/-- Gives a class a type. -/
def set (u : Unifier) (c : Nat) (t : Ty) : Unifier :=
  { u with found := (c, t) :: u.found.filter (·.1 != c) }

/-- Makes two classes one; a type that was found for one of them stays. -/
def join (u : Unifier) (c d : Nat) : Unifier where
  classes := u.classes.map fun (r, k) => (r, if k == d then c else k)
  found := u.found.map fun (k, t) => (if k == d then c else k, t)

/-- How many parameters are without a type. -/
def unknowns (u : Unifier) : Nat := u.classes.countP fun (_, c) => (u.found.lookup c).isNone

end Unifier

/-- How closely two types have to match. -/
structure Closeness where
  /-- A value of one type is assigned to the other; their parts have to be the same. -/
  assign : Bool
  /-- The types have to be the same. -/
  exact : Bool

namespace World

/-- The parameter that a type is, if it is sought. -/
def sought? (w : World) (u : Unifier) (t : Ty) : Option Nat :=
  match w.resolved t with
  | .param ref => u.class? ref
  | _ => none

/-- Whether a type is written out rather than declared. -/
def isWritten (w : World) (t : Ty) : Bool :=
  match w.resolved t with
  | .named _ _ | .param _ => false
  | _ => true

/-- The better of two types that match for one parameter, if they can both be meant.  Interfaces
only match interfaces, and a declared type is better than one that is written out. -/
def preferred? (w : World) (found new : Ty) : Option Ty :=
  let declared := w.isNamed new && !w.isNamed found
  match w.isInterface found, w.isInterface new with
  | true, true =>
    let same := if w.isNamed found && w.isNamed new then w.identical found new
      else w.identical (w.underlying found) (w.underlying new)
    if same then some (if declared then new else found) else none
  | false, false =>
    match w.resolved found, w.resolved new with
    | .chan .both _, .chan d e => some (if d == .both then found else .chan d e)
    | _, _ => some (if declared then new else found)
  | _, _ => none

/-- Matches two types. -/
def unify (w : World) : Nat → Closeness → Ty → Ty → Unifier → Option Unifier
  | 0, _, _, _, _ => none
  | fuel + 1, mode, x, y, u =>
    if x == y || w.resolved x == w.resolved y then some u
    else
      let (x, y) := if w.isNamed x || (w.sought? u y).isSome then (y, x) else (x, y)
      let y :=
        if !mode.exact && w.isNamed y && w.isWritten x && !w.isInterface x then w.underlying y
        else y
      let exact : Closeness := ⟨false, true⟩
      let part : Closeness := ⟨mode.assign, mode.exact || mode.assign⟩
      let each (mode : Closeness) (xs ys : List Ty) (u : Unifier) : Option Unifier :=
        if xs.length = ys.length then
          (xs.zip ys).foldlM (fun u (x, y) => w.unify fuel mode x y u) u
        else none
      match w.sought? u x, w.sought? u y with
      | some c, some d =>
        if c == d then some u
        else
          match u.found.lookup c, u.found.lookup d with
          | some s, some t => w.unify fuel mode s t u
          | _, _ => some (u.join c d)
      | some c, none =>
        match u.found.lookup c with
        | none => some (u.set c y)
        | some t => do
          let u ← w.unify fuel mode t y u
          if mode.exact then return u
          else return u.set c (← w.preferred? t y)
      | none, _ =>
        let methods (ms : List (MethodName × Ty)) (find : MethodName → Option Ty) (u : Unifier) :
            Option Unifier :=
          ms.foldlM (fun u (m, s) => do w.unify fuel exact s (← find m) u) u
        let among (ms : List (MethodName × Ty)) (m : MethodName) : Option Ty :=
          (ms.find? fun (n, _) => methodId n.name n.package == methodId m.name m.package).map (·.2)
        let attached (t : Ty) (m : MethodName) : Option Ty :=
          (w.member? m.package m.name false t).bind fun f => w.memberMethod? f.member
        let sets := (w.typeSet x, w.typeSet y)
        let sameTypes := sets.1.comparable == sets.2.comparable &&
          Terms.same w.disjoint sets.1.terms sets.2.terms
        match !mode.exact, w.isInterface x, w.isInterface y with
        | true, true, true =>
          let (few, many) := if sets.1.methods.length ≤ sets.2.methods.length then
            (sets.1.methods, sets.2.methods) else (sets.2.methods, sets.1.methods)
          if sameTypes then methods few (among many) u else none
        | true, true, false => methods sets.1.methods (attached y) u
        | true, false, true => methods sets.2.methods (attached x) u
        | _, _, _ =>
          let (x, y) := if w.isParam y then (y, x) else (x, y)
          match w.resolved x, w.resolved y with
          | .primitive p, .primitive q => if p.plain == q.plain then some u else none
          | .array m a, .array n b => if m == n then w.unify fuel part a b u else none
          | .slice a, .slice b | .pointer a, .pointer b => w.unify fuel part a b u
          | .struct ms as, .struct ns bs =>
            let fit := ms.length == ns.length && (ms.zip ns).all fun (m, n) =>
              m.embedded == n.embedded && m.tag == n.tag &&
                sameName n.package m.name n.name m.package
            if fit then each part as bs u else none
          | .func ps _ as v _ rs, .func qs _ bs t _ ss =>
            if ps.length = qs.length ∧ v = t then do each part rs ss (← each part as bs u) else none
          | .interface .., .interface .. =>
            if sameTypes && sets.1.methods.length == sets.2.methods.length then
              methods sets.1.methods (among sets.2.methods) u
            else none
          | .map k v, .map l t => each part [k, v] [l, t] u
          | .chan d a, .chan e b =>
            if !mode.exact || d == e then w.unify fuel part a b u else none
          | .named r as, .named s bs => if r == s then each mode as bs u else none
          | .param r, _ =>
            match w.common? (.param r) with
            | some t => w.unify fuel ⟨true, false⟩ t y u
            | none => none
          | _, _ => none

/-- The depth to which types are matched. -/
def unifyDepth : Nat := 51

/-- The term that a type parameter has to match by its bound, and whether it is the only one. -/
def coreTerm? (w : World) (ref : TypeRef) : Option (Term × Bool) :=
  match (w.typeSet (.param ref)).terms with
  | none | some [] => none
  | some [t] => some (t, true)
  | some ts => (w.common? (.param ref)).map fun t => (⟨ts.any (·.tilde), t⟩, false)

/-- Matches what was found for one of some type parameters against its bound.  The methods count
where what was found is free of these parameters. -/
def unifyBound (w : World) (refs : List TypeRef) (ref : TypeRef) (u : Unifier) :
    Option Unifier := do
  let found := u.type? ref
  let u ← match w.coreTerm? ref, found with
    | some (core, _), some t => w.unify unifyDepth ⟨false, false⟩ t core.type u
    | some (core, true), none =>
      match core.tilde, u.class? ref with
      | false, some c => some (u.set c core.type)
      | _, _ => some u
    | _, none | none, _ => some u
  match found.filter fun t => !t.mentions refs with
  | none => return u
  | some t =>
    (w.abstractMethods (.param ref)).foldlM (fun u (m, s) => do
      let given ← match w.underlying t with
        | .interface .. =>
          ((w.abstractMethods t).find? fun (n, _) =>
            methodId n.name n.package == methodId m.name m.package).map (·.2)
        | _ => (w.memberIn? m.package m.name false t).bind fun f => w.memberMethod? f.member
      w.unify unifyDepth ⟨false, true⟩ given s u) u

/-- Matches all type parameters against their bounds until that finds nothing more. -/
def unifyBounds (w : World) (refs : List TypeRef) : Nat → Unifier → Option Unifier
  | 0, u => some u
  | n + 1, u => do
    let v ← refs.foldlM (fun u r => w.unifyBound refs r u) u
    if v.unknowns == u.unknowns then return v else w.unifyBounds refs n v

/-- Gives the parameters of untyped arguments the default of their largest type. -/
def unifyUntyped (args : List (TypeRef × Primitive)) (u : Unifier) : Option Unifier := do
  let open_ := args.filter fun (r, _) => (u.type? r).isNone
  let largest ← open_.foldlM (fun (done : List (Nat × Primitive)) (r, p) => do
    let c ← u.class? r
    match done.lookup c with
    | none => return (c, p) :: done
    | some q => return (c, ← largerUntyped? q p) :: done.filter (·.1 != c)) []
  return largest.foldl (fun u (c, p) => u.set c (.primitive p.default)) u

/-- The types found for some parameters, with one another put in until none is left. -/
def settled? (refs : List TypeRef) (u : Unifier) : Option (List Ty) := do
  let types ← refs.mapM u.type?
  let put (ts : List Ty) : List Ty := Ty.substAll (bindParams refs ts) ts
  let done := (refs.length + 1).repeat put types
  if Ty.anyMentions refs done then none else return done

/-- The type arguments of a call, from those that are given and from the parameters with their
arguments. -/
def infer? (w : World) (refs : List TypeRef) (given : List (Option Ty))
    (pairs : List (Ty × Operand)) : Option (List Ty) :=
  match given.mapM id with
  | some ts => if ts.length = refs.length then some ts else search
  | none => search
where
  /-- The search for what is not given. -/
  search : Option (List Ty) := do
    if pairs.any fun (_, a) => a.isInvalid then none
    let mentions (t : Ty) : Bool := t.mentions refs
    let concerned := pairs.filter fun (p, a) => mentions p || mentions a.type
    let u ← concerned.foldlM (fun u (p, a) =>
      if a.type.isUntyped then some u else w.unify unifyDepth ⟨true, false⟩ p a.type u)
      (Unifier.start refs given)
    let u ← w.unifyBounds refs (refs.length + 1) u
    let untyped := concerned.filterMap fun (p, a) =>
      match p, a.type with
      | .param r, .primitive q => if q.isUntyped && !a.isNil then some (r, q) else none
      | _, _ => none
    settled? refs (← unifyUntyped untyped u)

/-! ## copies -/

/-- Copies of some type parameters with their bounds, and what they stand for. -/
def copyParams (w : World) (n : Nat) (refs : List TypeRef) : World × List TypeRef × Subst :=
  let fresh := refs.map fun r => { r with copy := n }
  let σ := bindParams refs (fresh.map .param)
  let bounds := (fresh.zip refs).map fun (f, r) => (f, (w.bound r).subst σ)
  ({ w with copies := bounds ++ w.copies }, fresh, σ)

end World

end Ripple.Go
