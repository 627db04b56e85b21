import Ripple.Decimal.Reader
import Ripple.Mock.Random

/-!
# Ripple.Mock.Plan

What a synthetic project contains: classes with fields and their accessors, and service methods that
call each other and use the accessors.  The service methods are dealt out to layers in turn, and a
method calls only methods of deeper layers, so calls never come back.
-/

namespace Ripple.Mock

/-- The measures of a synthetic project. -/
structure Plan where
  classes : Int
  /-- Fields of each class. -/
  fields : Int
  /-- Service methods of each class. -/
  methods : Int
  /-- The deepest layer. -/
  depth : Int
  /-- Statements of a service method on average. -/
  density : Float
  seed : UInt64

/-- A service method: its class, its number there, and its layer. -/
structure Service where
  classNumber : Nat
  number : Nat
  layer : Nat
  deriving DecidableEq, Repr

/-- A statement of a service method. -/
inductive Statement where
  | call (target : Service)
  | read (classNumber field : Nat)
  | write (classNumber field : Nat)
  deriving DecidableEq, Repr

namespace Plan

/-- Whether there is something to generate. -/
def isValid (p : Plan) : Bool := 0 < p.classes && 0 < p.methods && 0 < p.depth

/-- The number of layers. -/
def layers (p : Plan) : Nat := p.depth.toNat + 1

/-- The number of service methods. -/
def services (p : Plan) : Nat := p.classes.toNat * p.methods.toNat

/-- The service methods in order; the layers take turns. -/
def service (p : Plan) (i : Nat) : Service :=
  ⟨i / p.methods.toNat, i % p.methods.toNat, i % p.layers⟩

/-- How many service methods a layer has. -/
def layerSize (p : Plan) (layer : Nat) : Nat := (p.services + p.depth.toNat - layer) / p.layers

/-- The service methods of a layer in order. -/
def layerService (p : Plan) (layer k : Nat) : Service := p.service (layer + k * p.layers)

/-! ## statements -/

/-- Six of ten statements of a method that is not in the deepest layer are calls. -/
def callShare : Nat := 5404319552844595

/-- Eight of ten calls go to the next layer. -/
def nextLayerShare : Nat := 7205759403792794

variable {σ : Type}

/-- A layer, if there is one of this number. -/
def layerAt (p : Plan) (layer : Nat) : Draw σ Nat := entry p.layers id layer

/-- A call to a service method of a layer, unless the layer is empty. -/
def drawCallTo (p : Plan) (s : Source σ) (target : Nat) : Draw σ (Option Statement) := do
  if p.layerSize target = 0 then return none
  let k ← s.below (p.layerSize target)
  return some (.call (← entry (p.layerSize target) (p.layerService target) k))

/-- A call from a layer that is not the deepest: to the next layer, or to any deeper one. -/
def drawCall (p : Plan) (s : Source σ) (layer : Nat) : Draw σ (Option Statement) := do
  let next ← p.layerAt (layer + 1)
  if ← s.chance nextLayerShare then p.drawCallTo s next
  else do p.drawCallTo s (← p.layerAt (layer + 1 + (← s.below (p.depth - layer))))

/-- A use of an accessor, unless classes have no fields. -/
def drawAccess (p : Plan) (s : Source σ) : Draw σ (Option Statement) := do
  if p.fields ≤ 0 then return none
  let classNumber ← s.below p.classes
  let field ← s.below p.fields
  if (← s.below 2) = 0 then return some (.write classNumber field)
  else return some (.read classNumber field)

/-- A statement of a method in a layer. -/
def drawStatement (p : Plan) (s : Source σ) (layer : Nat) : Draw σ (Option Statement) := do
  if layer < p.depth.toNat then
    if ← s.chance callShare then p.drawCall s layer else p.drawAccess s
  else p.drawAccess s

/-- Draws statements and keeps those that are not there yet. -/
def drawStatements (p : Plan) (s : Source σ) (layer : Nat) :
    Nat → List Statement → Draw σ (List Statement)
  | 0, body => return body
  | n + 1, body => do
    match ← p.drawStatement s layer with
    | none => p.drawStatements s layer n body
    | some a => p.drawStatements s layer n (if body.contains a then body else body ++ [a])

/-- The largest number of statements that are drawn for a method. -/
def statementBound (p : Plan) : Int := Decimal.truncate (p.density * 2) + 1

/-- The statements of a service method. -/
def drawBody (p : Plan) (s : Source σ) (m : Service) : Draw σ (List Statement) := do
  let n ← s.below p.statementBound
  p.drawStatements s m.layer (n + 1) []

/-- The service methods of a class with their statements. -/
def drawClass (p : Plan) (s : Source σ) (c : Nat) : Draw σ (List (Service × List Statement)) :=
  (List.range p.methods.toNat).mapM fun k => do
    let m ← entry p.services p.service (c * p.methods.toNat + k)
    return (m, ← p.drawBody s m)

end Plan

end Ripple.Mock
