import LibraryModels.Yaml.Style

/-!
# YAML nodes

The tree that the tokens of a document describe, before any scalar is given a type and any alias
is followed. Nodes that aliases refer to have labels: at first the names of the document, later
numbers.
-/

namespace LibraryModels.Yaml

/-- What may stand before a node: a label that aliases refer to, and a tag in full. -/
structure Properties (label : Type) where
  anchor : Option label := none
  tag : Option String := none
deriving DecidableEq, Repr

/-- A node of a document. -/
inductive Node (label : Type) where
  | alias (target : label)
  | scalar (properties : Properties label) (text : String) (style : Style)
  | sequence (properties : Properties label) (items : List (Node label))
  | mapping (properties : Properties label) (entries : List (Node label × Node label))

instance {label : Type} : Inhabited (Node label) := ⟨.scalar {} "" .plain⟩

namespace Node

variable {label : Type}

/-- The node of a value that is left out. -/
def absent : Node label :=
  .scalar {} "" .plain

mutual

/--
How many marks a node takes: one for an alias or a scalar, two for a collection besides its parts.
-/
def size : Node label → Nat
  | .alias _ => 1
  | .scalar .. => 1
  | .sequence _ items => itemsSize items + 2
  | .mapping _ entries => entriesSize entries + 2

/-- How many marks items take. -/
def itemsSize : List (Node label) → Nat
  | [] => 0
  | item :: rest => item.size + itemsSize rest

/-- How many marks entries take. -/
def entriesSize : List (Node label × Node label) → Nat
  | [] => 0
  | (key, value) :: rest => key.size + value.size + entriesSize rest

end

/-- A node under its own label, if it has one. -/
def labelled (properties : Properties label) (node : Node label) : List (label × Node label) :=
  (properties.anchor.map fun name => (name, node)).toList

mutual

/-- The labelled nodes in the order in which they begin. -/
def anchored : Node label → List (label × Node label)
  | .alias _ => []
  | .scalar properties text style => labelled properties (.scalar properties text style)
  | .sequence properties items =>
    labelled properties (.sequence properties items) ++ itemsAnchored items
  | .mapping properties entries =>
    labelled properties (.mapping properties entries) ++ entriesAnchored entries

/-- The labelled nodes among items. -/
def itemsAnchored : List (Node label) → List (label × Node label)
  | [] => []
  | item :: rest => item.anchored ++ itemsAnchored rest

/-- The labelled nodes among keys and values. -/
def entriesAnchored : List (Node label × Node label) → List (label × Node label)
  | [] => []
  | (key, value) :: rest => key.anchored ++ (value.anchored ++ entriesAnchored rest)

end

end Node

end LibraryModels.Yaml
