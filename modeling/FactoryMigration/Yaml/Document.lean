import FactoryMigration.Yaml.Node

set_option autoImplicit false

/-! # YAML documents

A document is a node together with the nodes that its aliases refer to. Where no node of an
application's own kind is in it, a document is a JSON value; keys are taken as text, and of several
entries with one key the last one counts. A document is not followed without end: nodes may nest
only so deep, and aliases may be followed only so often. -/

namespace FactoryMigration.Yaml

/-- A node with the nodes that aliases in it refer to. -/
structure Document where
  root : Node
  /-- The nodes with an anchor by its number, the last one first. -/
  anchored : List (Nat × Node)

namespace Document

/-- The document of a node. -/
def ofRoot (root : Node) : Document :=
  { root := root
    anchored := (root.nodes.filterMap fun node =>
      node.properties.anchor.map fun anchor => (anchor, node)).reverse }

/-- The node itself, or the one that an alias refers to. Of several nodes with one number it is the
last. -/
def target? (document : Document) : Node → Option Node
  | .reference anchor => document.anchored.lookup anchor
  | node => some node

/-! ## Following aliases -/

/-- How deep sequences and mappings may nest. -/
def maxDepth : Nat := 128

/-- How often aliases may be followed. -/
def maxJumps (document : Document) : Nat :=
  100 * document.root.size

/-- A reading of a document that counts how often it has followed aliases. -/
abbrev Following : Type → Type := StateT Nat Option

/-- The node itself, or the one that an alias refers to. -/
def follow (document : Document) (node : Node) : Following Node := do
  if let .reference _ := node then
    let jumps := (← get) + 1
    guard (jumps ≤ document.maxJumps)
    set jumps
  document.target? node

/-! ## JSON values -/

/-- What a scalar stands for under a standard tag, whatever its style; none if it is not of that
kind. -/
def taggedMeaning? (tag : Tag) (s : Scalar) : Option Meaning :=
  if tag = .standard "bool" then (bool? s.text).map .bool
  else if tag = .standard "int" then
    match plainMeaning s.text with
    | .number (.int n) => some (.number (.int n))
    | .wideInteger => some .wideInteger
    | _ => none
  else if tag = .standard "float" then
    match finite? s.text.toList with
    | some x => some (.number (.real x))
    | none => if isNonFinite s.text.toList then some .nonFinite else none
  else if tag = .standard "null" then
    if isNull s.text ∧ s.text ≠ "" then some .null else none
  -- A marked tag that belongs to no application says nothing.
  else if tag.isMarked then some s.meaning
  else some .text

/-- The JSON value of a scalar: null for numbers that are not finite, and none for integers that are
too wide. -/
def scalarJson? (properties : Properties) (s : Scalar) : Option Json := do
  let meaning ← match properties.tag with
    | some tag => taggedMeaning? tag s
    | none => some s.meaning
  match meaning with
  | .null => some .null
  | .bool b => some (.bool b)
  | .number n => some (.num n)
  | .wideInteger => none
  | .nonFinite => some .null
  | .text => some (.str s.text)

/-- The text of a key. -/
def keyText (document : Document) (key : Node) : Following String := do
  match ← document.follow key with
  | .scalar _ s => return s.text
  | _ => failure

/-- The JSON value of a node, with a reading of the nodes in it if it may hold any. -/
def jsonWith (document : Document) (inner : Option (Node → Following Json)) (node : Node) :
    Following Json := do
  let node ← document.follow node
  guard !(node.properties.tag.any Tag.isLocal)
  match node, inner with
  | .scalar properties s, _ => scalarJson? properties s
  | .sequence _ items, some json => return .arr (← items.mapM json)
  | .mapping _ entries, some json =>
    let fields ← entries.mapM fun (key, value) => do
      return (← document.keyText key, ← json value)
    return .ofFields fields
  | _, _ => failure

/-- The JSON value of a node that nests at most so deep. -/
def json (document : Document) : Nat → Node → Following Json
  | 0 => document.jsonWith none
  | depth + 1 => document.jsonWith (some (document.json depth))

/-- The JSON value of a document. -/
def toJson? (document : Document) : Option Json :=
  (document.json maxDepth document.root).run' 0

end Document

end FactoryMigration.Yaml
