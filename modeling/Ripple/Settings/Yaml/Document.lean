import Ripple.Settings.Value
import Ripple.Settings.Yaml.Node

/-!
# Ripple.Settings.Yaml.Document

The values of YAML documents.  Only the first document of a text counts.

A map must not have a key twice, and what `<<` refers to fills in the keys that are missing.  A
document in which nearly everything comes out of references is refused.
-/

namespace Ripple.Settings.Yaml

/-- A tag with its usual abbreviation. -/
def shortTag (tag : String) : String :=
  let long := "tag:yaml.org,2002:"
  if Text.hasPrefix tag long then "!!" ++ String.ofList (tag.toList.drop long.length) else tag

/-- The characters of a text with 64 digits, by their values. -/
def digit64? (c : Char) : Option Nat :=
  if c.isUpper then some (c.toNat - 65)
  else if c.isLower then some (c.toNat - 71)
  else if c.isDigit then some (c.toNat + 4)
  else if c == '+' then some 62
  else if c == '/' then some 63
  else none

/-- The bytes that are written in groups of four digits; the last group may end in equals signs. -/
def bytes64? : List Char → Option (List Nat)
  | [] => some []
  | [a, b, '=', '='] => do return [(← digit64? a) * 4 + (← digit64? b) / 16]
  | [a, b, c, '='] => do
    let n := ((← digit64? a) * 64 + (← digit64? b)) * 64 + (← digit64? c)
    return [n / 1024, n / 4 % 256]
  | a :: b :: c :: d :: rest => do
    let n := (((← digit64? a) * 64 + (← digit64? b)) * 64 + (← digit64? c)) * 64 + (← digit64? d)
    return n / 65536 :: n / 256 % 256 :: n % 256 :: (← bytes64? rest)
  | _ => none

/-- The text that is written with 64 digits; line ends do not count, and bytes that belong to no
character are replaced. -/
def binaryText? (s : String) : Option String := do
  let bytes ← bytes64? (s.toList.filter fun c => c != '\n' && c != '\r')
  return RawText.shown ⟨bytes.map Nat.toUInt8⟩

/-- The value of a scalar.  A tag of one of the usual kinds must fit; a text with another tag stays
a text. -/
def scalarValue? (tag text : String) (plain : Bool) : Option Value :=
  match shortTag tag with
  | "" => some (if plain then Value.ofPlain text else .text text)
  | "!!str" => some (.text text)
  | "!!binary" => (binaryText? text).map .text
  | "!!null" => (some (Value.ofUntimed text)).filter fun
    | .null => true
    | _ => false
  | "!!bool" => (some (Value.ofUntimed text)).filter fun
    | .bool _ => true
    | _ => false
  | "!!int" => (some (Value.ofUntimed text)).filter fun
    | .int _ => true
    | _ => false
  | "!!float" =>
    match Value.ofUntimed text with
    | .float x => some (.float x)
    | .int n => if Text.Integer.fits n then some (.float (Float.ofInt n)) else none
    | _ => none
  | "!!timestamp" => (some (Value.ofPlain text)).filter fun
    | .time => true
    | _ => false
  | _ => some (.text text)

/-! ## references -/

/-- How many nodes were looked at, and how many of them through references. -/
structure Effort where
  all : Nat := 0
  borrowed : Nat := 0

/-- The part of all nodes that may come from references: nearly all in a document of a moderate
size, and a tenth in a very large one. -/
def allowedShare (n : Nat) : Float :=
  if n ≤ 400000 then 0.99
  else if 4000000 ≤ n then 0.10
  else 0.99 - 0.89 * (Float.ofNat (n - 400000) / 3600000)

/-- Whether too much of a document comes from references. -/
def Effort.isExcessive (e : Effort) : Bool :=
  e.borrowed > 100 && e.all > 1000 &&
    Float.ofNat e.borrowed / Float.ofNat e.all > allowedShare e.all

/-- A reader of values. -/
abbrev Evaluate := StateT Effort Option

/-- Counts a node; `borrowed` tells whether it is reached through a reference. -/
def spend (borrowed : Bool) : Evaluate Unit := do
  let e ← get
  let e : Effort := ⟨e.all + 1, if borrowed then e.borrowed + 1 else e.borrowed⟩
  if e.isExcessive then failure else set e

/-- What nodes are read with: the nodes with an anchor, and the anchors that are being followed. -/
structure Context where
  anchored : List (Nat × Node)
  active : List Nat := []

/-- The context inside a reference; a node must not contain itself. -/
def Context.follow (x : Context) (number : Nat) : Option (Node × Context) := do
  if x.active.contains number then none
  return (← x.anchored.lookup number, { x with active := number :: x.active })

/-- What two keys must not have in common: a sort of node and a text. -/
def Node.mark : Node → Nat × String
  | .scalar _ text _ => (0, text)
  | .sequence _ => (1, "")
  | .mapping _ => (2, "")
  | .reference name _ => (3, name)

/-- Whether a key stands for the entries of other maps. -/
def Node.isMerge : Node → Bool
  | .scalar tag text plain =>
    text == "<<" && ((tag.isEmpty && plain) || shortTag tag == "!!merge")
  | _ => false

/-- The maps that a merged value consists of. -/
def mergedMaps (x : Context) : Node → Option (List Node)
  | .sequence items => if items.all isMap then some items else none
  | n => if isMap n then some [n] else none
where
  /-- Whether a node is a map or refers to one. -/
  isMap : Node → Bool
    | .mapping _ => true
    | .reference _ number =>
      match x.anchored.lookup number with
      | some (.mapping _) => true
      | _ => false
    | _ => false

/-! ## values -/

/-- The text of a key. -/
def keyText (v : Value) (text : String) : Option String :=
  match v with
  | .text s => some s
  | .list _ | .map _ => none
  | _ => some text

mutual

/-- The value of a node. -/
def evaluate : Nat → Context → Node → Evaluate Value
  | 0, _, _ => failure
  | fuel + 1, x, n => do
    spend (!x.active.isEmpty)
    match n with
    | .scalar tag text plain => scalarValue? tag text plain
    | .sequence items => return .list (← evaluateAll fuel x items)
    | .mapping entries => return .map (← evaluateMap fuel x none entries)
    | .reference _ number =>
      let (target, inner) ← x.follow number
      evaluate fuel inner target

/-- The values of some nodes. -/
def evaluateAll : Nat → Context → List Node → Evaluate (List Value)
  | 0, _, _ => failure
  | _ + 1, _, [] => return []
  | fuel + 1, x, n :: rest => do return (← evaluate fuel x n) :: (← evaluateAll fuel x rest)

/-- The entries of a map.  `taken` are the keys that are set already, if the map is merged into
another. -/
def evaluateMap : Nat → Context → Option (List String) → List (Node × Node) →
    Evaluate (List (String × Value))
  | 0, _, _, _ => failure
  | fuel + 1, x, taken, entries => do
    let marks := entries.map (·.1.mark)
    if marks.eraseDups.length != marks.length then failure
    let own ← evaluateEntries fuel x (taken.getD []) (entries.filter (!·.1.isMerge))
    match (entries.filter (·.1.isMerge)).getLast? with
    | none => return own
    | some (_, merged) =>
      let maps ← mergedMaps x merged
      return own ++ (← evaluateMerged fuel x (taken.getD [] ++ own.map (·.1)) maps)

/-- The entries of a map that are not taken yet, in order. -/
def evaluateEntries : Nat → Context → List String → List (Node × Node) →
    Evaluate (List (String × Value))
  | 0, _, _, _ => failure
  | _ + 1, _, _, [] => return []
  | fuel + 1, x, taken, (k, v) :: rest => do
    let key ← keyText (← evaluate fuel x k) k.mark.2
    if taken.contains key then evaluateEntries fuel x taken rest
    else
      let value ← evaluate fuel x v
      return (key, value) :: (← evaluateEntries fuel x taken rest)

/-- The entries that some maps add to those that are taken. -/
def evaluateMerged : Nat → Context → List String → List Node → Evaluate (List (String × Value))
  | 0, _, _, _ => failure
  | _ + 1, _, _, [] => return []
  | fuel + 1, x, taken, n :: rest => do
    spend (!x.active.isEmpty)
    let added ← match n with
      | .mapping entries => evaluateMap fuel x (some taken) entries
      | .reference _ number => do
        let (target, inner) ← x.follow number
        spend true
        match target with
        | .mapping entries => evaluateMap fuel inner (some taken) entries
        | _ => failure
      | _ => failure
    return added ++ (← evaluateMerged fuel x (taken ++ added.map (·.1)) rest)

end

/-- The value of the first document of a text. -/
def parse? (text : String) : Option Value := do
  match ← document? text with
  | (none, _) => return .null
  | (some n, anchored) =>
    let fuel := (8 * text.length + 16) * (anchored.length + 2)
    return (← (evaluate fuel { anchored } n).run {}).1

end Ripple.Settings.Yaml
