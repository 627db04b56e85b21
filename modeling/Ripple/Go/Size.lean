import Ripple.Go.Member

/-!
# Ripple.Go.Size

How many bytes the values of a type take, where a word has eight, and where the fields of a struct
stand.
-/

namespace Ripple.Go

/-- The least multiple of a number that is not below another. -/
def alignedTo (n a : Nat) : Nat := (n + a - 1) / a * a

/-- The number of bytes of a word. -/
def wordSize : Nat := 8

/-- Where values stand that follow each other with their sizes and alignments, and where the last
ends. -/
def layout : Nat → List (Nat × Nat) → List Nat × Nat
  | o, [] => ([], o)
  | o, (size, align) :: rest =>
    let start := alignedTo o align
    let (starts, last) := layout (start + size) rest
    (start :: starts, last)

namespace World

/-- The size and the alignment of the values of a type. -/
def measure (w : World) : Nat → Ty → Nat × Nat
  | 0, _ => (wordSize, wordSize)
  | fuel + 1, t =>
    match w.underlying t with
    | .primitive p =>
      (p.size, if p.isString then wordSize else if p.isComplex then p.size / 2 else p.size)
    | .array n e =>
      let (size, align) := w.measure fuel e
      (n * size, align)
    | .slice _ => (3 * wordSize, wordSize)
    | .interface .. => (2 * wordSize, wordSize)
    | .struct _ types =>
      let parts := types.map (w.measure fuel)
      let align := parts.foldl (fun a (_, b) => max a b) 1
      let (starts, last) := layout 0 parts
      -- The last field of a struct that takes bytes must take some too.
      let start := starts.getLast?.getD 0
      (alignedTo (if 0 < start && start == last then last + 1 else last) align, align)
    | _ => (wordSize, wordSize)

/-- The size of the values of a type. -/
def sizeOf (w : World) (t : Ty) : Nat := (w.measure w.depth t).1

/-- The alignment of the values of a type. -/
def alignOf (w : World) (t : Ty) : Nat := (w.measure w.depth t).2

/-- Where the field stands that numbers lead to, the outermost first. -/
def offsetOf (w : World) (t : Ty) : List Nat → Nat
  | [] => 0
  | i :: rest =>
    match w.underlying t with
    | .struct _ types =>
      (layout 0 (types.map (w.measure w.depth))).1.getD i 0 +
        (match types[i]? with
          | some u => w.offsetOf u rest
          | none => 0)
    | _ => 0

/-- Whether the size of a type is open: it depends on a type parameter or has no end. -/
def hasOpenSize (w : World) : Nat → List TypeRef → Ty → Bool
  | 0, _, _ => true
  | fuel + 1, seen, t =>
    let again := match w.resolved t with
      | .named ref _ => seen.contains ref
      | _ => false
    let seen := match w.resolved t with
      | .named ref _ => ref :: seen
      | _ => seen
    again || w.isParam t ||
      match w.underlying t with
      | .array _ e => w.hasOpenSize fuel seen e
      | .struct _ types => types.any (w.hasOpenSize fuel seen)
      | _ => false

/-- Whether the size of a type is open. -/
def isOpenSized (w : World) (t : Ty) : Bool := w.hasOpenSize w.depth [] t

end World

end Ripple.Go
