import FactoryMigration.Yaml.Tag
import FactoryMigration.Yaml.Scalar

set_option autoImplicit false

/-! # YAML nodes

The structure of a document: scalars, sequences and mappings, each with a tag and an anchor if it
has them, and aliases in the place of nodes with an anchor. -/

namespace FactoryMigration.Yaml

/-- What stands before a node. -/
structure Properties where
  /-- The number by which aliases refer to the node. -/
  anchor : Option Nat
  tag : Option Tag
deriving DecidableEq

namespace Properties

def none : Properties := ⟨.none, .none⟩

def isNone (properties : Properties) : Bool :=
  properties.anchor.isNone && properties.tag.isNone

end Properties

/-- A value of a document. -/
inductive Node where
  /-- An alias of the node whose anchor has the given number. -/
  | reference (anchor : Nat)
  | scalar (properties : Properties) (scalar : Scalar)
  | sequence (properties : Properties) (items : List Node)
  | mapping (properties : Properties) (entries : List (Node × Node))

namespace Node

/-- The node of no text at all. -/
def empty : Node := .scalar .none .empty

/-- What stands before the node. -/
def properties : Node → Properties
  | reference _ => .none
  | scalar properties _ => properties
  | sequence properties _ => properties
  | mapping properties _ => properties

mutual

/-- The node and the nodes in it, in the order in which they begin. -/
def nodes : Node → List Node
  | sequence properties items => .sequence properties items :: itemNodes items
  | mapping properties entries => .mapping properties entries :: entryNodes entries
  | node => [node]

/-- The nodes of some items. -/
def itemNodes : List Node → List Node
  | [] => []
  | item :: items => nodes item ++ itemNodes items

/-- The nodes of some entries. -/
def entryNodes : List (Node × Node) → List Node
  | [] => []
  | (key, value) :: entries => nodes key ++ nodes value ++ entryNodes entries

end

/-- Whether the node is a sequence or a mapping. -/
def isCollection : Node → Bool
  | sequence .. => true
  | mapping .. => true
  | _ => false

/-- The size of a node: one for every node in it, and one for every collection. -/
def size (node : Node) : Nat :=
  node.nodes.length + node.nodes.countP isCollection

end Node

end FactoryMigration.Yaml
