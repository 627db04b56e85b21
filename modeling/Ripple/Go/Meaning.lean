import Ripple.Go.Scope

/-!
# Ripple.Go.Meaning

What types stand for: the type that a declared type is made of, the set of types that an interface
allows, and when two types are the same.
-/

namespace Ripple.Go

/-- The substitution of arguments for the parameters of a declaration. -/
def bindParams (params : List TypeRef) (args : List Ty) : Subst := params.zip args

/-- A term of a type set: a type, or all types made of it. -/
structure Term where
  tilde : Bool
  type : Ty
  deriving Inhabited

/-- A set of types. -/
structure TypeSet where
  /-- It has only types whose values can be compared. -/
  comparable : Bool
  /-- The methods that all its types have. -/
  methods : List (MethodName × Ty)
  /-- The terms of which one must match; none if there is no restriction. -/
  terms : Option (List Term)

/-- The set of all types. -/
def TypeSet.all : TypeSet := ⟨false, [], none⟩

/-- What tells methods with the same name apart: those that are not exported belong to a package. -/
def methodId (name package : String) : String × String :=
  (name, if exported name then "" else package)

/-- Whether a method comes before another: exported ones come first, then names decide, then
packages. -/
def methodBefore (a b : MethodName) : Bool :=
  let e := exported a.name
  let f := exported b.name
  if e != f then e
  else if a.name != b.name then a.name < b.name
  else e || a.package ≤ b.package

/-- Methods in order. -/
def sortMethods (ms : List (MethodName × Ty)) : List (MethodName × Ty) :=
  ms.mergeSort fun a b => methodBefore a.1 b.1

/-- Adds the methods that are new by name. -/
def addMethods (ms more : List (MethodName × Ty)) : List (MethodName × Ty) :=
  more.foldl (fun ms (m, t) =>
    if ms.any fun (n, _) => methodId n.name n.package == methodId m.name m.package then ms
    else ms ++ [(m, t)]) ms

/-! ## terms -/

namespace Terms

/-- Adds a term; one that overlaps it is replaced by the wider of the two. -/
def insert (disjoint : Term → Term → Bool) (x : Term) : List Term → List Term
  | [] => [x]
  | y :: ys =>
    if disjoint y x then y :: insert disjoint x ys
    else (if y.tilde || !x.tilde then y else x) :: ys

/-- Terms without those that others include. -/
def normal (disjoint : Term → Term → Bool) (xs : List Term) : List Term :=
  xs.foldl (fun done x => insert disjoint x done) []

/-- The terms of the types that two lists of terms have in common. -/
def meet (disjoint : Term → Term → Bool) : Option (List Term) → Option (List Term) →
    Option (List Term)
  | none, ts | ts, none => ts
  | some xs, some ys =>
    some <| normal disjoint <| xs.flatMap fun x => ys.filterMap fun y =>
      if disjoint x y then none else some (if !x.tilde || y.tilde then x else y)

/-- Whether every type of a term belongs to one of some terms. -/
def covers (disjoint : Term → Term → Bool) (ys : List Term) (x : Term) : Bool :=
  ys.any fun y => !disjoint x y && (!x.tilde || y.tilde)

/-- Whether two lists of terms describe the same types. -/
def same (disjoint : Term → Term → Bool) : Option (List Term) → Option (List Term) → Bool
  | none, none => true
  | some xs, some ys => xs.all (covers disjoint ys) && ys.all (covers disjoint xs)
  | _, _ => false

end Terms

namespace World

/-- The right side of a declared type with arguments for its parameters. -/
def expand (w : World) (ref : TypeRef) (args : List Ty) : Ty :=
  match w.types[ref]? with
  | some ⟨params, some rhs, true⟩ =>
    if args.isEmpty then rhs
    else if args.length = params.length then rhs.subst (bindParams params args)
    else .invalid
  | _ => .invalid

/-- A type with the aliases at its front replaced by what they stand for. -/
def unaliasFrom (w : World) : Nat → Ty → Ty
  | fuel + 1, .synonym ref args => w.unaliasFrom fuel (w.expand ref args)
  | 0, .synonym _ _ => .invalid
  | _, t => t

/-- A type without aliases at its front. -/
def resolved (w : World) (t : Ty) : Ty :=
  match t with
  | .synonym _ _ => w.unaliasFrom w.depth t
  | t => t

/-- The bound of a type parameter. -/
def bound (w : World) (ref : TypeRef) : Ty :=
  ((w.copies.lookup ref).or w.bounds[ref]?).getD .invalid

/-- The type that a declared type is made of; for a type parameter, the interface that bounds it. -/
def underlyingFrom (w : World) : Nat → Ty → Ty
  | fuel + 1, .synonym ref args | fuel + 1, .named ref args =>
    w.underlyingFrom fuel (w.expand ref args)
  | fuel + 1, .param ref =>
    let b := w.unaliasFrom fuel (w.bound ref)
    match b with
    | .param _ => emptyInterface
    | _ =>
      match w.underlyingFrom fuel b with
      | .interface c names types embedded => .interface c names types embedded
      | .invalid => emptyInterface
      | _ => .interface false [] [] [b]
  | 0, .synonym _ _ | 0, .named _ _ | 0, .param _ => .invalid
  | _, t => t

/-- The type that a declared type is made of. -/
def underlying (w : World) (t : Ty) : Ty :=
  match t with
  | .synonym _ _ | .named _ _ | .param _ => w.underlyingFrom w.depth t
  | t => t

/-- Whether a type can be resolved. -/
def isValid (w : World) (t : Ty) : Bool := !(w.resolved t).isInvalid

/-- Whether a type is a type parameter. -/
def isParam (w : World) (t : Ty) : Bool :=
  match w.resolved t with
  | .param _ => true
  | _ => false

/-- Whether a type is declared, and neither an alias nor a type parameter. -/
def isNamed (w : World) (t : Ty) : Bool :=
  match w.resolved t with
  | .named _ _ => true
  | _ => false

/-- Whether a type is an interface, and not a type parameter. -/
def isInterface (w : World) (t : Ty) : Bool :=
  match w.underlying t with
  | .interface _ _ _ _ => !w.isParam t
  | _ => false

/-- Whether a type is a declared one that still lacks its arguments. -/
def isGeneric (w : World) (t : Ty) : Bool :=
  match t with
  | .named ref [] | .synonym ref [] => (w.types[ref]?).any fun i => !i.params.isEmpty
  | _ => false

mutual

/-- Whether two types are the same; `assumed` are interfaces that are being compared already. -/
def identicalFrom (w : World) : Nat → List (Ty × Ty) → Ty → Ty → Bool
  | 0, _, _, _ => false
  | fuel + 1, assumed, a, b =>
    let all (as bs : List Ty) : Bool :=
      as.length == bs.length &&
        (as.zip bs).all fun (a, b) => w.identicalFrom fuel assumed a b
    let disjoint (x y : Term) : Bool :=
      !w.identicalFrom fuel assumed (if y.tilde then w.underlying x.type else x.type)
        (if x.tilde then w.underlying y.type else y.type)
    match w.resolved a, w.resolved b with
    | .invalid, .invalid => true
    | .primitive p, .primitive q => p.plain == q.plain
    | .param r, .param s => r == s
    | .named r as, .named s bs => r == s && all as bs
    | .pointer a, .pointer b | .slice a, .slice b => w.identicalFrom fuel assumed a b
    | .array m a, .array n b => m == n && w.identicalFrom fuel assumed a b
    | .map k v, .map l u => all [k, v] [l, u]
    | .chan d a, .chan e b => d == e && w.identicalFrom fuel assumed a b
    | .func ps _ as v _ rs, .func qs _ bs u _ ss =>
      let σ := bindParams qs (ps.map .param)
      ps.length == qs.length && v == u &&
        (if qs.isEmpty then all as bs && all rs ss
         else all as (Ty.substAll σ bs) && all rs (Ty.substAll σ ss))
    | .struct ms as, .struct ns bs =>
      ms.length == ns.length && all as bs && (ms.zip ns).all fun (m, n) =>
        m.embedded == n.embedded && m.tag == n.tag && sameName n.package m.name n.name m.package
    | .interface c ms as es, .interface d ns bs fs =>
      let a := Ty.interface c ms as es
      let b := Ty.interface d ns bs fs
      if assumed.any fun (x, y) => x == a && y == b then true
      else
        let s := w.typeSetFrom fuel [] a
        let t := w.typeSetFrom fuel [] b
        s.comparable == t.comparable && Terms.same disjoint s.terms t.terms &&
          s.methods.length == t.methods.length &&
          (s.methods.zip t.methods).all fun ((m, x), n, y) =>
            methodId m.name m.package == methodId n.name n.package &&
              w.identicalFrom fuel ((a, b) :: assumed) x y
    | .union ts as, .union us bs =>
      Terms.same disjoint (w.typeSetFrom fuel [] (.union ts as)).terms
        (w.typeSetFrom fuel [] (.union us bs)).terms
    | .tuple as, .tuple bs => all as bs
    | _, _ => false

/-- Whether values of a type can be compared; with `dynamic`, those of interfaces can. -/
def comparableFrom (w : World) : Nat → List Ty → Bool → Ty → Bool
  | 0, _, _, _ => true
  | fuel + 1, seen, dynamic, t =>
    if seen.any (· == t) then true
    else
      let seen := t :: seen
      match w.underlying t with
      | .primitive p => p != .untypedNil
      | .invalid | .pointer _ | .chan _ _ => true
      | .struct _ types => types.all (w.comparableFrom fuel seen dynamic)
      | .array _ e => w.comparableFrom fuel seen dynamic e
      | .interface _ _ _ _ =>
        (dynamic && !w.isParam t) ||
          let s := w.typeSetFrom fuel [] t
          match s.terms with
          | none => s.comparable
          | some terms => terms.all fun x => w.comparableFrom fuel seen false x.type
      | _ => false

/-- The set of types that a type allows; `seen` are the declared types that are being expanded. -/
def typeSetFrom (w : World) : Nat → List TypeRef → Ty → TypeSet
  | 0, _, _ => .all
  | fuel + 1, seen, t =>
    let disjoint (x y : Term) : Bool :=
      !w.identicalFrom fuel [] (if y.tilde then w.underlying x.type else x.type)
        (if x.tilde then w.underlying y.type else y.type)
    match t with
    | .interface comparable names types embedded =>
      let start : TypeSet := ⟨comparable, addMethods [] (names.zip types), none⟩
      let set := embedded.foldl (fun (s : TypeSet) e =>
        let part : Option TypeSet := match w.underlying e with
          | .invalid => none
          | .interface _ _ _ _ => some (w.typeSetFrom fuel seen e)
          | .union tildes types => some (w.typeSetFrom fuel seen (.union tildes types))
          | _ => some ⟨false, [], some [⟨false, e⟩]⟩
        match part with
        | none => s
        | some p =>
          let terms := Terms.meet disjoint s.terms p.terms
          let comparable := s.comparable || p.comparable
          match comparable, terms with
          | true, some xs =>
            ⟨false, addMethods s.methods p.methods,
              some (xs.filter fun x => w.comparableFrom fuel [] false x.type)⟩
          | _, _ => ⟨comparable, addMethods s.methods p.methods, terms⟩) start
      { set with methods := sortMethods set.methods }
    | .named ref args | .synonym ref args =>
      if seen.contains ref then .all else w.typeSetFrom fuel (ref :: seen) (w.expand ref args)
    | .param _ => w.typeSetFrom fuel seen (w.underlying t)
    | .union tildes types =>
      let parts := (tildes.zip types).map fun (tilde, t) =>
        match w.underlying t with
        | .interface _ _ _ _ => (w.typeSetFrom fuel seen t).terms
        | .invalid => some []
        | u => if tilde && !w.identicalFrom fuel [] t u then some [] else some [⟨tilde, t⟩]
      if parts.any Option.isNone then .all
      else ⟨false, [], some (Terms.normal disjoint (parts.flatMap fun p => p.getD []))⟩
    | .invalid => .all
    | t => ⟨false, [], some [⟨false, t⟩]⟩

end

/-- Whether two types are the same. -/
def identical (w : World) (a b : Ty) : Bool := w.identicalFrom w.depth [] a b

/-- Whether values of a type can be compared; those of interfaces always can. -/
def isComparable (w : World) (t : Ty) : Bool := w.comparableFrom w.depth [] true t

/-- Whether values of a type can be compared without fail. -/
def isStrictlyComparable (w : World) (t : Ty) : Bool := w.comparableFrom w.depth [] false t

/-- The set of types that an interface or a type parameter allows. -/
def typeSet (w : World) (t : Ty) : TypeSet := w.typeSetFrom w.depth [] t

/-! ## the types behind a type -/

/-- The types for which a type can stand, each with what it is made of.  For a type parameter these
are the terms of its bound, or nothing at all if the bound names none. -/
def instances (w : World) (t : Ty) : Option (List (Ty × Ty)) :=
  if w.isParam t then
    match (w.typeSet t).terms with
    | none | some [] => none
    | some ts => some (ts.map fun x => (x.type, w.underlying x.type))
  else some [(t, w.underlying t)]

/-- Whether a condition holds for all that a type can be made of. -/
def allUnder (w : World) (t : Ty) (p : Ty → Bool) : Bool :=
  match w.instances t with
  | some us => us.all fun (_, u) => p u
  | none => false

/-- The one type of which all types behind a type are made, if there is one; channels may differ in
what they allow. -/
def common? (w : World) (t : Ty) : Option Ty := do
  let us ← w.instances t
  let join (a b : Ty) : Option Ty :=
    match a, b with
    | .chan d x, .chan e y =>
      if !w.identical x y then none
      else if d == e then some a
      else if d == .both then some b
      else if e == .both then some a
      else none
    | a, b => if w.identical a b then some a else none
  match us with
  | [] => none
  | (_, u) :: rest => rest.foldlM (fun a (_, b) => join a b) u

/-- Whether a property holds of a primitive type, or of all behind a type parameter. -/
def allPrimitive (w : World) (p : Primitive → Bool) (t : Ty) : Bool :=
  w.allUnder t fun
    | .primitive q => p q
    | _ => false

/-- The primitive type that a type is made of; a type parameter has none. -/
def primitive? (w : World) (t : Ty) : Option Primitive :=
  match w.underlying t with
  | .primitive p => some p
  | _ => none

/-- Whether a type that is no type parameter is made of a primitive type with a property. -/
def isPrimitive (w : World) (p : Primitive → Bool) (t : Ty) : Bool := (w.primitive? t).any p

/-- Whether `nil` is a value of a type. -/
def hasNil (w : World) (t : Ty) : Bool :=
  w.allUnder t fun
    | .primitive p => p == .pointer
    | .slice _ | .pointer _ | .func .. | .map _ _ | .chan _ _ | .interface .. => true
    | _ => false

end World

end Ripple.Go
