import FactoryMigration.Yaml.Document
import FactoryMigration.Yaml.Lexer

set_option autoImplicit false

/-! # Reading YAML

The nodes of a row of tokens. A text holds one document, which may have directives in front of it.
Keys and values may be missing and are empty then. An anchor gets the number of the different names
before it; an alias refers to the number that its name has there. The readers are bounded by a
number of steps, of which a text needs at most a few for each token. -/

namespace FactoryMigration.Yaml

/-- Tokens left to read, what the handles of tags stand for, and the numbers of the names so far. -/
structure Reading where
  tokens : List Token
  handles : List (String × Tag)
  names : List (String × Nat)

/-- A step of reading. -/
abbrev Reader : Type → Type := StateT Reading Option

namespace Reader

/-- The next token. -/
def peek : Reader (Option Token) := do
  return (← get).tokens.head?

/-- Leaves out the next token. -/
def skip : Reader Unit :=
  modify fun r => { r with tokens := r.tokens.tail }

/-- Whether the next token is one of some. -/
def sees (tokens : List Token) : Reader Bool := do
  return (← peek).any tokens.contains

/-- Takes the next token if it is the given one. -/
def accept (token : Token) : Reader Bool := do
  if ← sees [token] then
    skip
    return true
  else return false

/-- Takes the next token, which has to be the given one. -/
def expect (token : Token) : Reader Unit := do
  guard (← accept token)

/-! ## Anchors and tags -/

/-- The number of a new anchor. -/
def newAnchor (name : String) : Reader Nat := do
  let number := (← get).names.length
  modify fun r => { r with names := (name, number) :: r.names.filter (·.1 != name) }
  return number

/-- An anchor, if there is one. -/
def anchor : Reader (Option Nat) := do
  match ← peek with
  | some (.anchor name) =>
    skip
    return some (← newAnchor name)
  | _ => return none

/-- A tag, if there is one. -/
def tag : Reader (Option Tag) := do
  match ← peek with
  | some (.tag name) =>
    skip
    return some (← name.resolve? (← get).handles)
  | _ => return none

/-- An anchor and a tag in any order. -/
def properties : Reader Properties := do
  match ← anchor with
  | some number => return ⟨number, ← tag⟩
  | none =>
    let tag ← tag
    return ⟨← anchor, tag⟩

/-! ## Nodes -/

/-- Where a node stands. -/
inductive Context where
  | block
  /-- In a block mapping, where an item may stand as far left as the key. -/
  | blockEntry
  | flow
deriving DecidableEq

/-- The node without content; it needs an anchor or a tag. -/
def emptyNode (properties : Properties) : Reader Node := do
  guard !properties.isNone
  return .scalar properties .empty

mutual

/-- A node. -/
def node (context : Context) : Nat → Reader Node
  | 0 => failure
  | steps + 1 => do
    if let some (.reference name) ← peek then
      skip
      return .reference (← (← get).names.lookup name)
    let properties ← properties
    match ← peek, context with
    | some (.scalar scalar), _ =>
      skip
      return .scalar properties scalar
    | some .flowSequence, _ =>
      skip
      return .sequence properties (← flowItems true steps)
    | some .flowMapping, _ =>
      skip
      return .mapping properties (← flowEntries true steps)
    | some .item, .blockEntry => return .sequence properties (← indentlessItems steps)
    | _, .flow => emptyNode properties
    | some .blockSequence, _ =>
      skip
      return .sequence properties (← blockItems steps)
    | some .blockMapping, _ =>
      skip
      return .mapping properties (← blockEntries steps)
    | _, _ => emptyNode properties

/-- A node, which is missing before the given tokens. -/
def nodeBefore (ends : List Token) (context : Context) : Nat → Reader Node
  | 0 => failure
  | steps + 1 => do
    if ← sees ends then return .empty else node context steps

/-- The items of a block sequence. -/
def blockItems : Nat → Reader (List Node)
  | 0 => failure
  | steps + 1 => do
    if ← accept .blockEnd then return []
    expect .item
    let item ← nodeBefore [.item, .blockEnd] .block steps
    return item :: (← blockItems steps)

/-- The items of a block sequence that stands as far left as the mapping around it. -/
def indentlessItems : Nat → Reader (List Node)
  | 0 => failure
  | steps + 1 => do
    if ← accept .item then
      let item ← nodeBefore [.item, .key, .value, .blockEnd] .block steps
      return item :: (← indentlessItems steps)
    else return []

/-- The entries of a block mapping. -/
def blockEntries : Nat → Reader (List (Node × Node))
  | 0 => failure
  | steps + 1 => do
    if ← accept .blockEnd then return []
    expect .key
    let key ← nodeBefore [.key, .value, .blockEnd] .blockEntry steps
    let value ←
      if ← accept .value then nodeBefore [.key, .value, .blockEnd] .blockEntry steps
      else pure .empty
    return (key, value) :: (← blockEntries steps)

/-- The items of a flow sequence, after a comma unless `first`. An item may be a single entry with
its key marked, and a comma may stand after the last item. -/
def flowItems (first : Bool) : Nat → Reader (List Node)
  | 0 => failure
  | steps + 1 => do
    if ← accept .flowSequenceEnd then return []
    if !first then expect .comma
    if ← accept .flowSequenceEnd then return []
    let item ←
      if ← accept .key then
        let key ← flowItemKey steps
        let value ← flowValue [.comma, .flowSequenceEnd] steps
        pure (.mapping .none [(key, value)])
      else node .flow steps
    return item :: (← flowItems false steps)

/-- The key of a single entry in a flow sequence; where it is missing, the token in its place is
left out. -/
def flowItemKey : Nat → Reader Node
  | 0 => failure
  | steps + 1 => do
    if ← sees [.value, .comma, .flowSequenceEnd] then
      skip
      return .empty
    else node .flow steps

/-- The value of an entry in a flow collection, if there is one before the given tokens. -/
def flowValue (ends : List Token) : Nat → Reader Node
  | 0 => failure
  | steps + 1 => do
    if ← accept .value then nodeBefore ends .flow steps else return .empty

/-- The entries of a flow mapping, after a comma unless `first`. A node whose key is not marked has
no value, and a comma may stand after the last entry. -/
def flowEntries (first : Bool) : Nat → Reader (List (Node × Node))
  | 0 => failure
  | steps + 1 => do
    if ← accept .flowMappingEnd then return []
    if !first then expect .comma
    if ← accept .flowMappingEnd then return []
    let entry ←
      if ← accept .key then
        let key ← nodeBefore [.value, .comma, .flowMappingEnd] .flow steps
        pure (key, ← flowValue [.comma, .flowMappingEnd] steps)
      else pure (← node .flow steps, Node.empty)
    return entry :: (← flowEntries false steps)

end

/-! ## Documents -/

/-- The handles that every document knows. -/
def standardHandles : List (String × Tag) :=
  [(TagName.primaryHandle, .ofString "!"), ("!!", .standard "")]

/-- What the handles stand for after some directives, which name a known version at most once and
every handle at most once. -/
def handles? : (versioned : Bool) → List (String × Tag) → List Directive →
    Option (List (String × Tag))
  | _, handles, [] => some handles
  | versioned, handles, .version major minor :: directives =>
    if versioned ∨ major ≠ 1 ∨ (minor ≠ 1 ∧ minor ≠ 2) then none
    else handles? true handles directives
  | versioned, handles, .handle name beginning :: directives =>
    if (handles.lookup name).isSome then none
    else handles? versioned ((name, beginning) :: handles) directives

/-- The content of a document up to the marks of its end. -/
def content : Reader Node := do
  let root ← node .block (4 * (← get).tokens.length + 4)
  guard ((← get).tokens.all (· = .documentEnd))
  return root

end Reader

/-- The directive that a token is. -/
def Token.directive? : Token → Option Directive
  | directive d => some d
  | _ => none

namespace Document

/-- The document of some tokens. Directives need the mark of a start after them, and only after it
the content may be missing where the text goes on. -/
def ofTokens? (tokens : List Token) : Option Document := do
  let isDirective (token : Token) : Bool := token.directive?.isSome
  let directives := (tokens.takeWhile isDirective).filterMap Token.directive?
  let handles := (← Reader.handles? false [] directives) ++ Reader.standardHandles
  match tokens.dropWhile isDirective, directives with
  | .documentStart :: inner, _ =>
    if inner.all (· = .documentEnd) then return .ofRoot .empty
    else return .ofRoot (← Reader.content.run' ⟨inner, handles, []⟩)
  | [], [] => return .ofRoot .empty
  | inner, [] => return .ofRoot (← Reader.content.run' ⟨inner, handles, []⟩)
  | _, _ => none

/-- Reads a text with one document. -/
def parse? (text : String) : Option Document :=
  (Token.ofText? text).bind ofTokens?

end Document

end FactoryMigration.Yaml
