import LibraryModels.Yaml.Node
import LibraryModels.Yaml.Token

/-!
# From tokens to nodes

The grammar of YAML documents. Every reader takes the tokens from the front and gives the rest
back. A stream may hold one document at most.
-/

namespace LibraryModels.Yaml

/-- The handles that tags may use and what they stand for. -/
abbrev Handles := List (String × String)

/-- The handles that need no directive. -/
def standardHandles : Handles :=
  [("!", "!"), ("!!", "tag:yaml.org,2002:")]

/-- A tag in full. -/
def fullTag (handles : Handles) (handle suffix : String) : Option String :=
  if handle = "" then some suffix
  else (handles.lookup handle).map (· ++ suffix)

/-- Reads the properties in front of a node, in either order. -/
def readProperties (handles : Handles) : List Token → Option (Properties String × List Token)
  | .anchor name :: .tag handle suffix :: rest =>
    (fullTag handles handle suffix).map fun tag => (⟨some name, some tag⟩, rest)
  | .anchor name :: rest => some (⟨some name, none⟩, rest)
  | .tag handle suffix :: .anchor name :: rest =>
    (fullTag handles handle suffix).map fun tag => (⟨some name, some tag⟩, rest)
  | .tag handle suffix :: rest =>
    (fullTag handles handle suffix).map fun tag => (⟨none, some tag⟩, rest)
  | rest => some ({}, rest)

/-- A scalar after its properties; the tag `!` by itself says nothing about it. -/
def scalarNode (properties : Properties String) (text : String) (style : Style) : Node String :=
  if properties.tag = some "!" then .scalar { properties with tag := none } text style
  else .scalar properties text style

/--
Where a node may stand: whether block collections, and items without indentation, may begin there.
-/
structure Place where
  block : Bool
  unindented : Bool

/-- A place where any node may stand. -/
def Place.anywhere : Place := ⟨true, false⟩

/-- A key or value of a block mapping, where items need no indentation. -/
def Place.inMapping : Place := ⟨true, true⟩

/-- A place inside a flow collection. -/
def Place.inFlow : Place := ⟨false, false⟩

/-- Whether an item of a block sequence is left out before this token. -/
def endsBlockItem : List Token → Bool
  | .blockEntry :: _ => true
  | .blockEnd :: _ => true
  | _ => false

/-- Whether a key or value of a block mapping is left out before this token. -/
def endsBlockPart : List Token → Bool
  | .key :: _ => true
  | .value :: _ => true
  | .blockEnd :: _ => true
  | _ => false

/-- Whether an item without indentation is left out before this token. -/
def endsUnindentedItem (tokens : List Token) : Bool :=
  endsBlockPart tokens || endsBlockItem tokens

/-- Whether a part of a pair in a flow sequence is left out before this token. -/
def endsFlowItem : List Token → Bool
  | .flowEntry :: _ => true
  | .flowSequenceEnd :: _ => true
  | _ => false

/-- Whether a part of a flow mapping is left out before this token. -/
def endsFlowPart : List Token → Bool
  | .flowEntry :: _ => true
  | .flowMappingEnd :: _ => true
  | _ => false

/-- Whether a value mark comes next. -/
def atValue : List Token → Bool
  | .value :: _ => true
  | _ => false

mutual

/-- Reads a node; `fuel` bounds the number of nested and following nodes. -/
def readNode (handles : Handles) (fuel : Nat) (place : Place) (tokens : List Token) :
    Option (Node String × List Token) :=
  match fuel with
  | 0 => none
  | fuel + 1 =>
    match tokens with
    | .alias name :: rest => some (.alias name, rest)
    | _ => do
      let (properties, tokens) ← readProperties handles tokens
      match tokens with
      | .scalar text style :: rest => some (scalarNode properties text style, rest)
      | .flowSequenceStart :: rest => do
        let (items, rest) ← readFlowItems handles fuel true rest
        some (.sequence properties items, rest)
      | .flowMappingStart :: rest => do
        let (entries, rest) ← readFlowEntries handles fuel true rest
        some (.mapping properties entries, rest)
      | _ =>
        if place.unindented ∧ tokens.head? = some .blockEntry then do
          let (items, rest) ← readUnindentedItems handles fuel tokens
          some (.sequence properties items, rest)
        else if place.block ∧ tokens.head? = some .blockSequenceStart then do
          let (items, rest) ← readBlockItems handles fuel tokens.tail
          some (.sequence properties items, rest)
        else if place.block ∧ tokens.head? = some .blockMappingStart then do
          let (entries, rest) ← readBlockEntries handles fuel tokens.tail
          some (.mapping properties entries, rest)
        else if properties = {} then none
        else some (.scalar properties "" .plain, tokens)

/-- Reads the items of a block sequence up to its end. -/
def readBlockItems (handles : Handles) (fuel : Nat) (tokens : List Token) :
    Option (List (Node String) × List Token) :=
  match fuel with
  | 0 => none
  | fuel + 1 =>
    match tokens with
    | .blockEntry :: rest => do
      let (item, rest) ←
        if endsBlockItem rest then some (Node.absent, rest)
        else readNode handles fuel .anywhere rest
      let (items, rest) ← readBlockItems handles fuel rest
      some (item :: items, rest)
    | .blockEnd :: rest => some ([], rest)
    | _ => none

/-- Reads the items of a sequence that is not indented; it ends where no further item follows. -/
def readUnindentedItems (handles : Handles) (fuel : Nat) (tokens : List Token) :
    Option (List (Node String) × List Token) :=
  match fuel with
  | 0 => none
  | fuel + 1 =>
    match tokens with
    | .blockEntry :: rest => do
      let (item, rest) ←
        if endsUnindentedItem rest then some (Node.absent, rest)
        else readNode handles fuel .anywhere rest
      let (items, rest) ← readUnindentedItems handles fuel rest
      some (item :: items, rest)
    | rest => some ([], rest)

/-- Reads the entries of a block mapping up to its end. -/
def readBlockEntries (handles : Handles) (fuel : Nat) (tokens : List Token) :
    Option (List (Node String × Node String) × List Token) :=
  match fuel with
  | 0 => none
  | fuel + 1 =>
    match tokens with
    | .key :: rest => do
      let (key, rest) ←
        if endsBlockPart rest then some (Node.absent, rest)
        else readNode handles fuel .inMapping rest
      let (value, rest) ←
        if ! atValue rest then some (Node.absent, rest)
        else if endsBlockPart rest.tail then some (Node.absent, rest.tail)
        else readNode handles fuel .inMapping rest.tail
      let (entries, rest) ← readBlockEntries handles fuel rest
      some ((key, value) :: entries, rest)
    | .blockEnd :: rest => some ([], rest)
    | _ => none

/-- Reads the items of a flow sequence up to its end; commas stand between them. -/
def readFlowItems (handles : Handles) (fuel : Nat) (first : Bool) (tokens : List Token) :
    Option (List (Node String) × List Token) :=
  match fuel with
  | 0 => none
  | fuel + 1 =>
    match tokens with
    | .flowSequenceEnd :: rest => some ([], rest)
    | _ => do
      let tokens ←
        if first then some tokens
        else match tokens with
          | .flowEntry :: rest => some rest
          | _ => none
      match tokens with
      | .flowSequenceEnd :: rest => some ([], rest)
      | .key :: rest => do
        let (pair, rest) ← readPair handles fuel rest
        let (items, rest) ← readFlowItems handles fuel false rest
        some (.mapping {} [pair] :: items, rest)
      | _ => do
        let (item, rest) ← readNode handles fuel .inFlow tokens
        let (items, rest) ← readFlowItems handles fuel false rest
        some (item :: items, rest)

/--
Reads a pair in a flow sequence. Where the key is left out, the token in its place is passed over.
-/
def readPair (handles : Handles) (fuel : Nat) (tokens : List Token) :
    Option ((Node String × Node String) × List Token) :=
  match fuel with
  | 0 => none
  | fuel + 1 => do
    let (key, rest) ←
      if atValue tokens ∨ endsFlowItem tokens then some (Node.absent, tokens.tail)
      else readNode handles fuel .inFlow tokens
    let (value, rest) ←
      if ! atValue rest then some (Node.absent, rest)
      else if endsFlowItem rest.tail then some (Node.absent, rest.tail)
      else readNode handles fuel .inFlow rest.tail
    some ((key, value), rest)

/-- Reads the entries of a flow mapping up to its end; commas stand between them. -/
def readFlowEntries (handles : Handles) (fuel : Nat) (first : Bool) (tokens : List Token) :
    Option (List (Node String × Node String) × List Token) :=
  match fuel with
  | 0 => none
  | fuel + 1 =>
    match tokens with
    | .flowMappingEnd :: rest => some ([], rest)
    | _ => do
      let tokens ←
        if first then some tokens
        else match tokens with
          | .flowEntry :: rest => some rest
          | _ => none
      match tokens with
      | .flowMappingEnd :: rest => some ([], rest)
      | .key :: rest => do
        let (key, rest) ←
          if atValue rest ∨ endsFlowPart rest then some (Node.absent, rest)
          else readNode handles fuel .inFlow rest
        let (value, rest) ←
          if ! atValue rest then some (Node.absent, rest)
          else if endsFlowPart rest.tail then some (Node.absent, rest.tail)
          else readNode handles fuel .inFlow rest.tail
        let (entries, rest) ← readFlowEntries handles fuel false rest
        some ((key, value) :: entries, rest)
      | _ => do
        let (key, rest) ← readNode handles fuel .inFlow tokens
        let (entries, rest) ← readFlowEntries handles fuel false rest
        some ((key, Node.absent) :: entries, rest)

end

/-- Adds a handle, which a directive may define once. -/
def addHandle (handles : Handles) (handle lead : String) : Option Handles :=
  if (handles.lookup handle).isSome then none else some ((handle, lead) :: handles)

/-- Reads the directives of a document: at most one version, 1.1 or 1.2, and handles. -/
def readDirectives (versioned : Bool) (handles : Handles) :
    List Token → Option (Handles × List Token)
  | .versionDirective major minor :: rest =>
    if versioned ∨ major ≠ 1 ∨ (minor ≠ 1 ∧ minor ≠ 2) then none
    else readDirectives true handles rest
  | .tagDirective handle lead :: rest => do
    readDirectives versioned (← addHandle handles handle lead) rest
  | rest => some (handles, rest)

/-- Whether a document has no content before this token. -/
def endsDocument : List Token → Bool
  | [] => true
  | .versionDirective .. :: _ => true
  | .tagDirective .. :: _ => true
  | .documentStart :: _ => true
  | .documentEnd :: _ => true
  | _ => false

/-- A bound for the number of nested and following nodes. -/
def nodeFuel (tokens : List Token) : Nat :=
  2 * tokens.length + 2

/-- Reads the document at the front of a stream; an empty stream has none. -/
def readDocument (tokens : List Token) : Option (Option (Node String) × List Token) :=
  let start :=
    match tokens with
    | .versionDirective .. :: _ => true
    | .tagDirective .. :: _ => true
    | .documentStart :: _ => true
    | _ => false
  if tokens.isEmpty then some (none, [])
  else if ! start then do
    let (node, rest) ← readNode standardHandles (nodeFuel tokens) .anywhere tokens
    some (some node, rest)
  else do
    let (handles, rest) ← readDirectives false [] tokens
    match rest with
    | .documentStart :: rest =>
      if endsDocument rest then some (some Node.absent, rest)
      else do
        let (node, rest) ←
          readNode (handles ++ standardHandles) (nodeFuel rest) .anywhere rest
        some (some node, rest)
    | _ => none

/-- The document of a stream, if it holds no further one. -/
def nodeOfTokens (tokens : List Token) : Option (Option (Node String)) := do
  let (node, rest) ← readDocument tokens
  guard (rest.all (· = .documentEnd))
  return node

end LibraryModels.Yaml
