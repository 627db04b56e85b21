import Ripple.Settings.Yaml.Token

/-!
# Ripple.Settings.Yaml.Node

The first document of a YAML stream as a tree of nodes.  An anchor in front of a node gives it a
number; a reference holds the number of the latest anchor of its name before it.
-/

namespace Ripple.Settings.Yaml

/-- A node of a document. -/
inductive Node where
  /-- A scalar with its tag, which is empty if it has none. -/
  | scalar (tag text : String) (plain : Bool)
  | sequence (items : List Node)
  | mapping (entries : List (Node × Node))
  | reference (name : String) (number : Nat)
  deriving Inhabited

/-- The state of reading nodes. -/
structure Composer where
  scanner : Scanner
  /-- What the handles of tags stand for. -/
  handles : List (String × String) := []
  /-- The anchors by name, the latest first. -/
  names : List (String × Nat) := []
  /-- The nodes with an anchor. -/
  anchored : List (Nat × Node) := []
  /-- How many anchors there are. -/
  count : Nat := 0

/-- A reader of nodes. -/
abbrev Compose := StateT Composer Option

namespace Compose

/-- The next token, which stays. -/
def peek : Compose Token := do
  let s := (← get).scanner
  let scanner ← s.fill (s.cursor.rest.length + 8)
  modify fun c => { c with scanner }
  scanner.queue.head?

/-- Takes the token that was looked at. -/
def drop : Compose Unit :=
  modify fun c =>
    let s := c.scanner
    { c with scanner := { s with queue := s.queue.drop 1, taken := s.taken + 1 } }

/-- Takes a token and looks at the one after it. -/
def advance : Compose Token := do
  drop
  peek

/-- A node without content. -/
def empty : Node := .scalar "" "" true

/-! ## properties -/

/-- The tag that the parts of a tag token stand for. -/
def tagOf (handle suffix : String) : Compose String := do
  if handle.isEmpty then return suffix
  let target ← (← get).handles.lookup handle
  if (target ++ suffix).isEmpty then failure else return target ++ suffix

/-- The anchor and the tag in front of a node, in either order, with the token after them. -/
def properties : Compose (Option String × String × Token) := do
  match ← peek with
  | .anchor name =>
    match ← advance with
    | .tag handle suffix =>
      let next ← advance
      return (some name, ← tagOf handle suffix, next)
    | next => return (some name, "", next)
  | .tag handle suffix =>
    match ← advance with
    | .anchor name =>
      let next ← advance
      return (some name, ← tagOf handle suffix, next)
    | next => return (none, ← tagOf handle suffix, next)
  | next => return (none, "", next)

/-- Gives an anchor its number. -/
def enter (name : String) : Compose Nat := do
  let c ← get
  set { c with names := (name, c.count) :: c.names, count := c.count + 1 }
  return c.count

/-- Reads a node with an anchor, if it has one. -/
def anchoring (name : Option String) (read : Compose Node) : Compose Node := do
  match name with
  | none => read
  | some name =>
    let number ← enter name
    let n ← read
    modify fun c => { c with anchored := (number, n) :: c.anchored }
    return n

/-! ## nodes -/

/-- Whether a node is missing between two marks of a block map. -/
def endsBlockPart : Token → Bool
  | .key | .value | .blockEnd => true
  | _ => false

/-- Whether a node is missing between two marks of a flow map. -/
def endsFlowPart (close : Token) (t : Token) : Bool := t == .value || t == .flowEntry || t == close

mutual

/-- A node.  Block collections may start here if `block` holds; the value of a key may also be a
list at the column of the key. -/
def node : Nat → Bool → Bool → Compose Node
  | 0, _, _ => failure
  | fuel + 1, block, indentless => do
    match ← peek with
    | .reference name =>
      drop
      let number ← (← get).names.lookup name
      return .reference name number
    | _ =>
      let (name, tag, t) ← properties
      anchoring name do
        match t with
        | .blockEntry =>
          if indentless then return .sequence (← indentlessItems fuel) else bare name tag
        | .scalar text plain =>
          drop
          return .scalar (if tag == "!" then "" else tag) text plain
        | .flowSequenceStart =>
          drop
          return .sequence (← flowItems fuel true)
        | .flowMappingStart =>
          drop
          return .mapping (← flowEntries fuel true)
        | .blockSequenceStart =>
          if block then
            drop
            return .sequence (← blockItems fuel)
          else bare name tag
        | .blockMappingStart =>
          if block then
            drop
            return .mapping (← blockEntries fuel)
          else bare name tag
        | _ => bare name tag

/-- A node that has nothing but an anchor or a tag. -/
def bare (name : Option String) (tag : String) : Compose Node :=
  if name.isNone && tag.isEmpty then failure
  else return .scalar (if tag == "!" then "" else tag) "" true

/-- The items of a block list. -/
def blockItems : Nat → Compose (List Node)
  | 0 => failure
  | fuel + 1 => do
    match ← peek with
    | .blockEntry =>
      let t ← advance
      let item ← if t == .blockEntry || t == .blockEnd then pure empty else node fuel true false
      return item :: (← blockItems fuel)
    | .blockEnd =>
      drop
      return []
    | _ => failure

/-- The items of a list at the column of its key. -/
def indentlessItems : Nat → Compose (List Node)
  | 0 => failure
  | fuel + 1 => do
    match ← peek with
    | .blockEntry =>
      let t ← advance
      let item ← if t == .blockEntry || endsBlockPart t then pure empty else node fuel true false
      return item :: (← indentlessItems fuel)
    | _ => return []

/-- The entries of a block map. -/
def blockEntries : Nat → Compose (List (Node × Node))
  | 0 => failure
  | fuel + 1 => do
    match ← peek with
    | .key =>
      let key ← if endsBlockPart (← advance) then pure empty else node fuel true true
      let value ← match ← peek with
        | .value => if endsBlockPart (← advance) then pure empty else node fuel true true
        | _ => pure empty
      return (key, value) :: (← blockEntries fuel)
    | .blockEnd =>
      drop
      return []
    | _ => failure

/-- The items of a flow list; an item with a colon is a map of one entry. -/
def flowItems : Nat → Bool → Compose (List Node)
  | 0, _ => failure
  | fuel + 1, first => do
    let t ← peek
    if t == .flowSequenceEnd then
      drop
      return []
    let t ← if first then pure t else if t == .flowEntry then advance else failure
    match t with
    | .flowSequenceEnd =>
      drop
      return []
    | .key =>
      let t ← advance
      let key ←
        if endsFlowPart .flowSequenceEnd t then
          drop
          pure empty
        else node fuel false false
      let value ← flowValue fuel .flowSequenceEnd
      return .mapping [(key, value)] :: (← flowItems fuel false)
    | _ =>
      let item ← node fuel false false
      return item :: (← flowItems fuel false)

/-- The value after a key in a flow collection, which may be missing. -/
def flowValue : Nat → Token → Compose Node
  | 0, _ => failure
  | fuel + 1, close => do
    match ← peek with
    | .value =>
      let t ← advance
      if t == .flowEntry || t == close then return empty else node fuel false false
    | _ => return empty

/-- The entries of a flow map. -/
def flowEntries : Nat → Bool → Compose (List (Node × Node))
  | 0, _ => failure
  | fuel + 1, first => do
    let t ← peek
    if t == .flowMappingEnd then
      drop
      return []
    let t ← if first then pure t else if t == .flowEntry then advance else failure
    match t with
    | .flowMappingEnd =>
      drop
      return []
    | .key =>
      let key ←
        if endsFlowPart .flowMappingEnd (← advance) then pure empty else node fuel false false
      let value ← flowValue fuel .flowMappingEnd
      return (key, value) :: (← flowEntries fuel false)
    | _ =>
      let key ← node fuel false false
      return (key, empty) :: (← flowEntries fuel false)

end

/-! ## documents -/

/-- Takes the directives in front of a document.  There is one version, which is 1.1, and every
handle has one meaning. -/
def directives : Nat → Bool → Compose Unit
  | 0, _ => failure
  | fuel + 1, versioned => do
    match ← peek with
    | .version major minor =>
      if versioned || major != 1 || minor != 1 then failure
      drop
      directives fuel true
    | .tagDirective handle target =>
      let c ← get
      if (c.handles.lookup handle).isSome then failure
      set { c with handles := (handle, target) :: c.handles }
      drop
      directives fuel versioned
    | _ => pure ()

/-- Adds the handles that every document has, unless it gives them another meaning. -/
def defaultHandles : Compose Unit :=
  modify fun c => { c with handles := c.handles ++ [("!", "!"), ("!!", "tag:yaml.org,2002:")] }

/-- Whether a token starts or ends a document. -/
def isBoundary : Token → Bool
  | .version _ _ | .tagDirective _ _ | .documentStart | .documentEnd | .streamEnd => true
  | _ => false

/-- The content of the first document; nothing if the stream is empty. -/
def document (fuel : Nat) : Compose (Option Node) := do
  match ← peek with
  | .streamEnd => return none
  | t =>
    let explicit := isBoundary t && t != .documentEnd
    if explicit then directives fuel false
    defaultHandles
    let content ←
      if explicit then
        if (← peek) != .documentStart then failure
        if isBoundary (← advance) then pure empty else node fuel true false
      else node fuel true false
    discard peek
    return some content

end Compose

/-- The first document of a text, with the nodes that have an anchor. -/
def document? (text : String) : Option (Option Node × List (Nat × Node)) := do
  let chars := match text.toList with
    | c :: rest => if isByteOrderMark c then rest else c :: rest
    | [] => []
  if !chars.all isAllowed then none
  let start : Composer := { scanner := { cursor := .start (unifyBreaks chars) } }
  let (node, c) ← (Compose.document (4 * chars.length + 16)).run start
  return (node, c.anchored)

end Ripple.Settings.Yaml
