import OneApi.Yaml.Token

/-! Documents as trees. A node may carry an anchor that aliases further on refer to. Anchors are
counted by the number of different names before them, and an alias stands for the last node of
its count. A text must hold one document at most. -/

namespace OneApi.Yaml

structure Scalar where
  tag : Option Tag := none
  style : Style := .plain
  text : Text := []
  deriving DecidableEq

inductive Node where
  | scalar (anchor : Option Nat) (value : Scalar)
  | sequence (anchor : Option Nat) (items : List Node)
  | mapping (anchor : Option Nat) (entries : List (Node × Node))
  | alias (anchor : Nat)

/-- What is still to be read, the tag handles of the document, and the anchors so far. -/
structure Source where
  tokens : List Token
  handles : List (Text × Tag) := []
  names : List (Text × Nat) := []

abbrev Reading := StateT Source Option

namespace Reading

def peek : Reading (Option Token) := do return (← get).tokens.head?

def skip : Reading Unit := modify fun s => { s with tokens := s.tokens.drop 1 }

/-- Counts an anchor. -/
def declare (name : Text) : Reading Nat := do
  let names := (← get).names
  let n := names.length
  modify fun s => { s with names := (name, n) :: names.filter fun x => x.1 != name }
  return n

def aliasOf (name : Text) : Reading Node := do
  return .alias (← (← get).names.lookup name)

def standardHandles : List (Text × Tag) :=
  [(['!'], Tag.plain), (['!', '!'], Tag.ofType "")]

/-- A tag without a handle is complete; other handles must be known. -/
def resolve (handle : Text) (suffix : Tag) : Reading Tag := do
  if handle.isEmpty then return suffix
  let expansion ← ((← get).handles ++ standardHandles).lookup handle
  return expansion ++ suffix

def anchorHere : Reading (Option Text) := do
  match ← peek with
  | some (.anchor name) => skip; return some name
  | _ => return none

def tagHere : Reading (Option (Text × Tag)) := do
  match ← peek with
  | some (.tag handle suffix) => skip; return some (handle, suffix)
  | _ => return none

/-- Anchor and tag of a node, in either order. -/
def properties : Reading (Option Text × Option Tag) := do
  let first ← anchorHere
  let tag ← tagHere
  let anchor ← if first.isNone && tag.isSome then anchorHere else pure first
  match tag with
  | none => return (anchor, none)
  | some (handle, suffix) => return (anchor, some (← resolve handle suffix))

def empty : Node := .scalar none {}

/-- Whether nothing stands before the next token of a block or flow collection. -/
def nothingBefore (ends : List Token) : Reading Bool := do
  return (← peek).any ends.contains

mutual

/-- Reads a node. `block` allows blocks, `inline` a sequence that is not indented. -/
def node : Nat → Bool → Bool → Reading Node
  | 0, _, _ => failure
  | n + 1, block, inline => do
    if let some (.alias name) ← peek then
      skip
      return ← aliasOf name
    let (name, tag) ← properties
    let anchor ← name.mapM declare
    match ← peek with
    | some (.scalar style text) => do
      skip
      return .scalar anchor ⟨tag, style, text⟩
    | some .flowSequence => do
      skip
      return .sequence anchor (← flowItems n true)
    | some .flowMapping => do
      skip
      return .mapping anchor (← flowEntries n true)
    | some .blockEntry =>
      if inline then return .sequence anchor (← inlineItems n)
      else bare anchor name tag
    | some .blockSequence =>
      if block then do
        skip
        return .sequence anchor (← blockItems n)
      else bare anchor name tag
    | some .blockMapping =>
      if block then do
        skip
        return .mapping anchor (← blockEntries n)
      else bare anchor name tag
    | _ => bare anchor name tag

/-- A node of which there is nothing but an anchor or a tag. -/
def bare (anchor : Option Nat) (name : Option Text) (tag : Option Tag) : Reading Node :=
  if name.isNone && tag.isNone then failure else pure (.scalar anchor { tag })

/-- Reads a node, or nothing where one of the given tokens comes next. -/
def nodeBefore : Nat → Bool → Bool → List Token → Reading Node
  | 0, _, _, _ => failure
  | n + 1, block, inline, ends => do
    if ← nothingBefore ends then return empty else node n block inline

def blockItems : Nat → Reading (List Node)
  | 0 => failure
  | n + 1 => do
    match ← peek with
    | some .blockEntry => do
      skip
      let item ← nodeBefore n true false [.blockEntry, .blockEnd]
      return item :: (← blockItems n)
    | some .blockEnd => do
      skip
      return []
    | _ => failure

def inlineItems : Nat → Reading (List Node)
  | 0 => failure
  | n + 1 => do
    match ← peek with
    | some .blockEntry => do
      skip
      let item ← nodeBefore n true false [.blockEntry, .key, .value, .blockEnd]
      return item :: (← inlineItems n)
    | _ => return []

/-- The value of a mapping entry, if there is a mark for one. -/
def entryValue : Nat → Bool → List Token → Reading Node
  | 0, _, _ => failure
  | n + 1, block, ends => do
    match ← peek with
    | some .value => do
      skip
      nodeBefore n block block ends
    | _ => return empty

def blockEntries : Nat → Reading (List (Node × Node))
  | 0 => failure
  | n + 1 => do
    match ← peek with
    | some .key => do
      skip
      let key ← nodeBefore n true true [.key, .value, .blockEnd]
      let value ← entryValue n true [.key, .value, .blockEnd]
      return (key, value) :: (← blockEntries n)
    | some .blockEnd => do
      skip
      return []
    | _ => failure

/-- Reads the items of a sequence in brackets; an item may be a single entry of a mapping. -/
def flowItems : Nat → Bool → Reading (List Node)
  | 0, _ => failure
  | n + 1, first => do
    if (← peek) = some .flowSequenceEnd then
      skip
      return []
    if !first then
      if (← peek) = some .flowEntry then skip else failure
    match ← peek with
    | some .flowSequenceEnd => do
      skip
      return []
    | some .key => do
      skip
      let entry ← flowPair n
      return .mapping none [entry] :: (← flowItems n false)
    | _ => do
      let item ← node n false false
      return item :: (← flowItems n false)

/-- The one entry of a mapping without braces. Where its key is missing the next token is lost. -/
def flowPair : Nat → Reading (Node × Node)
  | 0 => failure
  | n + 1 => do
    if ← nothingBefore [.value, .flowEntry, .flowSequenceEnd] then
      skip
      return (empty, ← entryValue n false [.flowEntry, .flowSequenceEnd])
    else
      let key ← node n false false
      return (key, ← entryValue n false [.flowEntry, .flowSequenceEnd])

def flowEntries : Nat → Bool → Reading (List (Node × Node))
  | 0, _ => failure
  | n + 1, first => do
    if (← peek) = some .flowMappingEnd then
      skip
      return []
    if !first then
      if (← peek) = some .flowEntry then skip else failure
    match ← peek with
    | some .flowMappingEnd => do
      skip
      return []
    | some .key => do
      skip
      let key ← nodeBefore n false false [.value, .flowEntry, .flowMappingEnd]
      let value ← entryValue n false [.flowEntry, .flowMappingEnd]
      return (key, value) :: (← flowEntries n false)
    | _ => do
      let key ← node n false false
      return (key, empty) :: (← flowEntries n false)

end

/-- Reads the instructions before a document: one version at most, and handles once each. -/
def directives : Nat → Bool → Reading Unit
  | 0, _ => failure
  | n + 1, versioned => do
    match ← peek with
    | some (.version major minor) =>
      if versioned || major != 1 || (minor != 1 && minor != 2) then failure
      skip
      directives n true
    | some (.handle name expansion) =>
      if (← get).handles.any (fun h => h.1 == name) then failure
      skip
      modify fun s => { s with handles := (name, expansion) :: s.handles }
      directives n versioned
    | _ => return ()

def isDirective : Token → Bool
  | .version _ _ => true
  | .handle _ _ => true
  | _ => false

/-- The one document of a text. Without any token there is none. -/
def document (size : Nat) : Reading (Option Node) := do
  match ← peek with
  | none => return none
  | some t =>
    let root ←
      if isDirective t || t = .documentStart then do
        directives (size + 1) false
        if (← peek) ≠ some .documentStart then failure
        skip
        match ← peek with
        | none => pure empty
        | some t =>
          if isDirective t || t = .documentStart || t = .documentEnd then pure empty
          else node size true false
      else node size true false
    modify fun s => { s with tokens := s.tokens.dropWhile (· = .documentEnd) }
    if (← peek).isSome then failure
    return some root

end Reading

mutual

/-- The nodes with an anchor, in the order in which they begin. -/
def Node.anchored : Node → List (Nat × Node)
  | .scalar anchor s => anchor.toList.map fun n => (n, .scalar anchor s)
  | .sequence anchor items =>
    (anchor.toList.map fun n => (n, .sequence anchor items)) ++ anchoredItems items
  | .mapping anchor entries =>
    (anchor.toList.map fun n => (n, .mapping anchor entries)) ++ anchoredEntries entries
  | .alias _ => []

def anchoredItems : List Node → List (Nat × Node)
  | [] => []
  | v :: vs => v.anchored ++ anchoredItems vs

def anchoredEntries : List (Node × Node) → List (Nat × Node)
  | [] => []
  | (k, v) :: es => k.anchored ++ v.anchored ++ anchoredEntries es

end

structure Tree where
  root : Option Node
  targets : List (Nat × Node)

namespace Tree

/-- A call takes two tokens at most, and no more than three calls lie between two of them. -/
def ofTokens (ts : List Token) : Option Tree := do
  let (root, _) ← (Reading.document (4 * ts.length + 4)).run { tokens := ts }
  return ⟨root, (root.toList.flatMap Node.anchored).reverse⟩

def parse (text : Text) : Option Tree := (tokens text).bind ofTokens

/-- What an alias stands for; any other node stands for itself. -/
def target (d : Tree) : Node → Option Node
  | .alias n => d.targets.lookup n
  | v => some v

end Tree

end OneApi.Yaml
