/-
# YAML nodes

The value that a YAML text denotes: scalars, sequences and mappings, with references to nodes that
were named before.

* `Node`: a value;
* `Document`: a root node with the nodes that have names;
* `Document.parse`: the only document of a text.
-/
import GoSurface.Yaml.Token

namespace GoSurface.Yaml

/-- A value. -/
inductive Node where
  /-- A text, and whether it is written without quotes and not as a block. -/
  | scalar (plain : Bool) (text : String)
  | sequence (items : List Node)
  | mapping (entries : List (Node × Node))
  /-- The node with this number among those with a name. -/
  | reference (number : Nat)

/-- What stands where nothing is written. -/
def Node.empty : Node := .scalar true ""

/-- A node with the named nodes in it. -/
structure Document where
  root : Node
  named : List (Nat × Node)

/-- The node that a reference stands for; a reference never stands for another one. -/
def Document.follow (d : Document) : Node → Node
  | .reference n => ((d.named.find? (·.1 = n)).map (·.2)).getD (.reference n)
  | node => node

/-! ## Reading nodes -/

/-- The tokens that are left, and the names so far. -/
structure NodeState where
  tokens : List Token
  /-- The number that each name stands for now, latest first. -/
  names : List (String × Nat) := []
  /-- The nodes with a name that are complete. -/
  named : List (Nat × Node) := []

/-- A reader of nodes. -/
abbrev NodeReader (α : Type) := StateT NodeState Option α

namespace NodeReader

/-- The next token, left in place. -/
def peek : NodeReader (Option Token) := do
  return (← get).tokens.head?

def skip : NodeReader Unit :=
  modify fun s => { s with tokens := s.tokens.tail }

/-- Takes one particular token if it comes next. -/
def accept (t : Token) : NodeReader Bool := do
  if (← peek) = some t then
    skip
    return true
  else return false

/-- Takes one particular token. -/
def expect (t : Token) : NodeReader Unit := do
  if ← accept t then pure () else failure

/-- Whether one of some tokens, or the end, comes next. -/
def atAny (ts : List Token) : NodeReader Bool := do
  match ← peek with
  | some t => return t ∈ ts
  | none => return true

/-- Gives a name to the node that follows; its number is new. -/
def declare (name : String) : NodeReader Nat := do
  let s ← get
  let number := s.names.length
  set { s with names := (name, number) :: s.names }
  return number

/-- The number that a name stands for. -/
def lookup (name : String) : NodeReader Nat := do
  match (← get).names.find? (·.1 = name) with
  | some (_, number) => return number
  | none => failure

/-- Records a complete node with a name. -/
def record (number : Nat) (node : Node) : NodeReader Unit :=
  modify fun s => { s with named := (number, node) :: s.named }

end NodeReader

open NodeReader

/-- What may stand in a place for a node. -/
inductive Place where
  /-- In a flow collection. -/
  | flow
  /-- In a collection by indentation. -/
  | block
  /-- In a mapping by indentation, where a sequence need not be indented. -/
  | entryOrBlock
deriving DecidableEq

mutual

/-- A node. -/
def node : Nat → Place → NodeReader Node
  | 0, _ => failure
  | n + 1, place => do
    match ← peek with
    | some (.reference x) =>
      skip
      return .reference (← lookup x)
    | some (.anchor x) =>
      skip
      let number ← declare x
      let found := (← content n place).getD .empty
      record number found
      return found
    | _ =>
      match ← content n place with
      | some found => return found
      | none => failure

/-- A node without a name, if one starts here. -/
def content : Nat → Place → NodeReader (Option Node)
  | 0, _ => failure
  | n + 1, place => do
    match ← peek with
    | some (.scalar plain text) =>
      skip
      return some (.scalar plain text)
    | some .openSequence =>
      skip
      return some (.sequence (← flowItems n true))
    | some .openMapping =>
      skip
      return some (.mapping (← flowEntries n true))
    | some .blockSequence =>
      if place = .flow then return none
      else
        skip
        return some (.sequence (← blockItems n))
    | some .blockMapping =>
      if place = .flow then return none
      else
        skip
        return some (.mapping (← blockEntries n))
    | some .entry =>
      if place = .entryOrBlock then return some (.sequence (← looseItems n))
      else return none
    | _ => return none

/-- A node, or nothing in front of one of some tokens. -/
def nodeBefore : Nat → Place → List Token → NodeReader Node
  | 0, _, _ => failure
  | n + 1, place, ends => do
    if ← atAny ends then return .empty else node n place

/-- The items of a sequence by indentation, up to its end. -/
def blockItems : Nat → NodeReader (List Node)
  | 0 => failure
  | n + 1 => do
    if ← accept .blockEnd then return []
    else
      expect .entry
      let item ← nodeBefore n .block [.entry, .blockEnd]
      return item :: (← blockItems n)

/-- The items of a sequence that is not indented in its mapping. -/
def looseItems : Nat → NodeReader (List Node)
  | 0 => failure
  | n + 1 => do
    if ← accept .entry then
      let item ← nodeBefore n .block [.entry, .key, .value, .blockEnd]
      return item :: (← looseItems n)
    else return []

/-- The entries of a mapping by indentation, up to its end. -/
def blockEntries : Nat → NodeReader (List (Node × Node))
  | 0 => failure
  | n + 1 => do
    if ← accept .blockEnd then return []
    else
      expect .key
      let ends := [Token.key, .value, .blockEnd]
      let k ← nodeBefore n .entryOrBlock ends
      let v ← if ← accept .value then nodeBefore n .entryOrBlock ends else pure .empty
      return (k, v) :: (← blockEntries n)

/-- The items of a flow sequence, up to its bracket; an item may be a pair. -/
def flowItems : Nat → Bool → NodeReader (List Node)
  | 0, _ => failure
  | n + 1, first => do
    if ← accept .closeSequence then return []
    else
      if !first then expect .comma
      if ← accept .closeSequence then return []
      else if ← accept .key then
        let ends := [Token.value, .comma, .closeSequence]
        let k ← nodeBefore n .flow ends
        let v ← if ← accept .value then nodeBefore n .flow [.comma, .closeSequence] else pure .empty
        return .mapping [(k, v)] :: (← flowItems n false)
      else
        let item ← node n .flow
        return item :: (← flowItems n false)

/-- The entries of a flow mapping, up to its brace; a key may stand alone. -/
def flowEntries : Nat → Bool → NodeReader (List (Node × Node))
  | 0, _ => failure
  | n + 1, first => do
    if ← accept .closeMapping then return []
    else
      if !first then expect .comma
      if ← accept .closeMapping then return []
      else if ← accept .key then
        let k ← nodeBefore n .flow [.value, .comma, .closeMapping]
        let v ← if ← accept .value then nodeBefore n .flow [.comma, .closeMapping] else pure .empty
        return (k, v) :: (← flowEntries n false)
      else
        let k ← node n .flow
        return (k, .empty) :: (← flowEntries n false)

end

/-! ## Documents -/

/-- The end of the only document: marks of its end, and nothing else. -/
def endOfDocuments (tokens : List Token) : Bool :=
  (tokens.dropWhile (· = .documentEnd)).isEmpty

/-- The root node of the only document; an empty text has an empty one. -/
def rootNode (size : Nat) : NodeReader Node := do
  if ← accept .documentStart then nodeBefore size .block [.documentStart, .documentEnd]
  else
    match ← peek with
    | none => return .empty
    | some _ => node size .block

/-- The document of a list of tokens. -/
def Document.ofTokens? (tokens : List Token) : Option Document :=
  match rootNode (2 * tokens.length + 2) { tokens } with
  | some (root, s) => if endOfDocuments s.tokens then some ⟨root, s.named⟩ else none
  | none => none

/-- The only document of a text. -/
def Document.parse (text : String) : Option Document := do
  Document.ofTokens? (← tokens text)

end GoSurface.Yaml
