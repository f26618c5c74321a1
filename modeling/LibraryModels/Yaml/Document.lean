import LibraryModels.Yaml.Node.OfTokens
import LibraryModels.Yaml.Token.Stream

/-!
# YAML documents

A document is a node whose labels are numbers, and a table of the nodes that the numbers stand
for. A name gets the number of names that are in use when it is met; an alias keeps the number
that its name has at that place. A name that is used again gets a new number, which another name
may get too, and a number stands for the node that begins last of those that have it. Following
aliases is bounded by the size of the document.
-/

namespace LibraryModels.Yaml

/-- The names in use and their numbers. -/
abbrev Numbering := List (String × Nat)

namespace Numbering

/-- Gives a name the number of names in use. -/
def assign (names : Numbering) (name : String) : Nat × Numbering :=
  (names.length, (name, names.length) :: names.filter fun e => e.1 ≠ name)

/-- The properties of a node, numbered. -/
def properties (names : Numbering) (p : Properties String) : Properties Nat × Numbering :=
  match p.anchor with
  | some name =>
    let (number, names) := names.assign name
    (⟨some number, p.tag⟩, names)
  | none => (⟨none, p.tag⟩, names)

end Numbering

namespace Node

mutual

/-- A node with numbers for names; an alias needs a name in use. -/
def numbered (names : Numbering) : Node String → Option (Node Nat × Numbering)
  | .alias name => (names.lookup name).map fun number => (.alias number, names)
  | .scalar p text style =>
    let (p, names) := names.properties p
    some (.scalar p text style, names)
  | .sequence p items => do
    let (p, names) := names.properties p
    let (items, names) ← itemsNumbered names items
    return (.sequence p items, names)
  | .mapping p entries => do
    let (p, names) := names.properties p
    let (entries, names) ← entriesNumbered names entries
    return (.mapping p entries, names)

/-- Items with numbers for names. -/
def itemsNumbered (names : Numbering) : List (Node String) → Option (List (Node Nat) × Numbering)
  | [] => some ([], names)
  | item :: rest => do
    let (item, names) ← item.numbered names
    let (rest, names) ← itemsNumbered names rest
    return (item :: rest, names)

/-- Keys and values with numbers for names. -/
def entriesNumbered (names : Numbering) :
    List (Node String × Node String) → Option (List (Node Nat × Node Nat) × Numbering)
  | [] => some ([], names)
  | (key, value) :: rest => do
    let (key, names) ← key.numbered names
    let (value, names) ← value.numbered names
    let (rest, names) ← entriesNumbered names rest
    return ((key, value) :: rest, names)

end

end Node

/-- A document. -/
structure Document where
  root : Node Nat
  /-- The numbered nodes, in the order in which they begin. -/
  targets : List (Nat × Node Nat)

namespace Document

/-- The node that a number stands for. -/
def target? (d : Document) (number : Nat) : Option (Node Nat) :=
  d.targets.reverse.lookup number

/-- How many aliases may be followed in reading the document. -/
def aliasLimit (d : Document) : Nat :=
  100 * d.root.size

/-- The document of a node. -/
def ofNode? (node : Node String) : Option Document := do
  let (root, _) ← node.numbered []
  return ⟨root, root.anchored⟩

/-- The one document of a text; an empty text has an absent value. -/
def ofText? (s : String) : Option Document := do
  let tokens ← tokensOf s
  let node ← nodeOfTokens tokens
  ofNode? (node.getD Node.absent)

end Document

end LibraryModels.Yaml
