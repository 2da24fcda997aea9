import ClusterHerald.Table
import ClusterHerald.Yaml.Token

/-!
# YAML documents

A document is a tree of nodes.  An alias in it stands for the node that carries its number
(`Document.target?`); it may stand within that very node, so a document is finite where what it
describes is not.

`Document.ofText?` reads a text that holds one document at most.
-/

namespace ClusterHerald.Yaml

/-- A node of a document.  Nodes with an anchor have a number. -/
inductive Node where
  | alias (target : Nat)
  | scalar (number : Option Nat) (tag : Option Octets) (style : Style) (text : String)
  | sequence (number : Option Nat) (items : List Node)
  | mapping (number : Option Nat) (members : List (Node × Node))
deriving Inhabited

namespace Node

/-- What stands where nothing is written. -/
def empty : Node := .scalar none none .plain ""

mutual

/-- How many marks a node takes: one for a scalar, one for either end of a collection. -/
def size : Node → Nat
  | .alias _ | .scalar .. => 1
  | .sequence _ items => sizeItems items + 2
  | .mapping _ members => sizeMembers members + 2

/-- How many marks a list of nodes takes. -/
def sizeItems : List Node → Nat
  | [] => 0
  | n :: ns => size n + sizeItems ns

/-- How many marks a list of members takes. -/
def sizeMembers : List (Node × Node) → Nat
  | [] => 0
  | (k, v) :: ms => size k + size v + sizeMembers ms

end

/-- A node with its number, if it has one. -/
def numbered (n : Node) : Option Nat → List (Nat × Node)
  | some i => [(i, n)]
  | none => []

mutual

/-- The numbered nodes within a node, in the order of the text. -/
def targets : Node → List (Nat × Node)
  | .alias _ => []
  | .scalar i tag style text => numbered (.scalar i tag style text) i
  | .sequence i items => numbered (.sequence i items) i ++ targetsOfItems items
  | .mapping i members => numbered (.mapping i members) i ++ targetsOfMembers members

/-- The numbered nodes within a list of nodes. -/
def targetsOfItems : List Node → List (Nat × Node)
  | [] => []
  | n :: ns => targets n ++ targetsOfItems ns

/-- The numbered nodes within a list of members. -/
def targetsOfMembers : List (Node × Node) → List (Nat × Node)
  | [] => []
  | (k, v) :: ms => targets k ++ (targets v ++ targetsOfMembers ms)

end

/-! ### Reading nodes -/

/-- Tokens of which nodes are read. -/
structure Supply where
  tokens : List Token
  /-- What the handles of tags stand for. -/
  handles : List (List Char × Octets)
  /-- The numbers of the anchors so far. -/
  anchors : Entries Nat

/-- A reader of nodes. -/
abbrev Read := StateT Supply Option

namespace Read

/-- The next token. -/
def peek? : Read (Option Token) := do return (← get).tokens.head?

/-- Leaves out the next token. -/
def skip : Read Unit := modify fun s => { s with tokens := s.tokens.drop 1 }

/-- Leaves out the next token if it is `t`, and says whether it was. -/
def skipIf (t : Token) : Read Bool := do
  if (← peek?) = some t then
    skip
    return true
  else return false

/-- Leaves out the next token, which must be `t`. -/
def expect (t : Token) : Read Unit := do
  if !(← skipIf t) then failure

/-- What a tag stands for; nothing if its handle is not known. -/
def resolve (handles : List (List Char × Octets)) (tag : TagName) : Option Octets :=
  -- a tag without a handle is written in full
  if tag.handle = [] then some tag.suffix
  else (handles.lookup tag.handle).map (· ++ tag.suffix)

/-- Splits anchor and tag from the tokens of a node. -/
def splitNames : List Token → Option String × Option TagName × List Token
  | .anchor a :: .tag t :: ts => (some a, some t, ts)
  | .tag t :: .anchor a :: ts => (some a, some t, ts)
  | .anchor a :: ts => (some a, none, ts)
  | .tag t :: ts => (none, some t, ts)
  | ts => (none, none, ts)

/-- Reads the names before a node. -/
def names : Read (Option String × Option Octets) := do
  let s ← get
  let (anchor, tag, ts) := splitNames s.tokens
  set { s with tokens := ts }
  match tag with
  | none => return (anchor, none)
  | some tag =>
    match resolve s.handles tag with
    | some tag => return (anchor, some tag)
    | none => failure

/-- Gives an anchor its number, which is how many other anchors there are.  So two anchors can get
the same number after one of them was used again. -/
def number : Option String → Read (Option Nat)
  | none => return none
  | some name => do
    let s ← get
    let n := s.anchors.length
    set { s with anchors := Entries.insert name n s.anchors }
    return some n

/-- Reads a node, or nothing if the next token is in `ends`. -/
def nodeUnless (ends : List Token) (node : Read Node) : Read Node := do
  match ← peek? with
  | some t => if t ∈ ends then return Node.empty else node
  | none => node

/-- Reads the items of a block. -/
def blockItems (node : Read Node) : Nat → Read (List Node)
  | 0 => failure
  | fuel + 1 => do
    if ← skipIf .dash then
      let item ← nodeUnless [.dash, .blockEnd] node
      return item :: (← blockItems node fuel)
    else
      expect .blockEnd
      return []

/-- Reads items in the column of the block around them, where nothing marks their end. -/
def bareItems (node : Read Node) : Nat → Read (List Node)
  | 0 => failure
  | fuel + 1 => do
    if ← skipIf .dash then
      let item ← nodeUnless [.dash, .key, .value, .blockEnd] node
      return item :: (← bareItems node fuel)
    else return []

/-- Reads the value of a member, or nothing if there is none. -/
def valueUnless (ends : List Token) (node : Read Node) : Read Node := do
  if ← skipIf .value then nodeUnless ends node
  else return Node.empty

/-- Reads the members of a block. -/
def blockMembers (node : Read Node) : Nat → Read (List (Node × Node))
  | 0 => failure
  | fuel + 1 => do
    if ← skipIf .key then
      let key ← nodeUnless [.key, .value, .blockEnd] node
      let value ← valueUnless [.key, .value, .blockEnd] node
      return (key, value) :: (← blockMembers node fuel)
    else
      expect .blockEnd
      return []

/-- Reads a member that is an item between brackets.  Where its key should be, a token that ends
the key is left out. -/
def pair (node : Read Node) : Read Node := do
  let key ←
    match ← peek? with
    | some .value | some .comma | some .bracketClose => do
      skip
      pure Node.empty
    | _ => node
  let value ← valueUnless [.comma, .bracketClose] node
  return .mapping none [(key, value)]

/-- Reads items between brackets. -/
def flowItems (node : Read Node) (isFirst : Bool) : Nat → Read (List Node)
  | 0 => failure
  | fuel + 1 => do
    if ← skipIf .bracketClose then return []
    else
      if !isFirst then expect .comma
      if ← skipIf .key then
        let item ← pair node
        return item :: (← flowItems node false fuel)
      else if ← skipIf .bracketClose then return []
      else
        let item ← node
        return item :: (← flowItems node false fuel)

/-- Reads members between braces. -/
def flowMembers (node : Read Node) (isFirst : Bool) : Nat → Read (List (Node × Node))
  | 0 => failure
  | fuel + 1 => do
    if ← skipIf .braceClose then return []
    else
      if !isFirst then expect .comma
      if ← skipIf .key then
        let key ← nodeUnless [.value, .comma, .braceClose] node
        let value ← valueUnless [.comma, .braceClose] node
        return (key, value) :: (← flowMembers node false fuel)
      else if ← skipIf .braceClose then return []
      else
        let key ← node
        return (key, Node.empty) :: (← flowMembers node false fuel)

/-- The tag of a scalar; a lone exclamation mark is none. -/
def scalarTag (tag : Option Octets) : Option Octets :=
  if tag = some (octetsOf ['!']) then none else tag

/-- Reads a node.  Blocks may open only where `inBlock` holds, and items without an opening only
where `bare` does.  `fuel` bounds depth and length; the number of tokens is enough. -/
def node : Nat → (inBlock bare : Bool) → Read Node
  | 0, _, _ => failure
  | fuel + 1, inBlock, bare => do
    match ← peek? with
    | some (.alias name) =>
      skip
      match Entries.get? (← get).anchors name with
      | some n => return .alias n
      | none => failure
    | _ =>
      let (anchor, tag) ← names
      let n ← number anchor
      match ← peek? with
      | some .dash =>
        if bare then return .sequence n (← bareItems (node fuel true false) (fuel + 1))
        else if anchor.isSome || tag.isSome then return .scalar n tag .plain ""
        else failure
      | some (.scalar style text) =>
        skip
        return .scalar n (scalarTag tag) style (String.ofList text)
      | some .bracketOpen =>
        skip
        return .sequence n (← flowItems (node fuel false false) true (fuel + 1))
      | some .braceOpen =>
        skip
        return .mapping n (← flowMembers (node fuel false false) true (fuel + 1))
      | next =>
        if inBlock && next = some .sequenceOpen then
          skip
          return .sequence n (← blockItems (node fuel true false) (fuel + 1))
        else if inBlock && next = some .mappingOpen then
          skip
          return .mapping n (← blockMembers (node fuel true true) (fuel + 1))
        else if anchor.isSome || tag.isSome then return .scalar n tag .plain ""
        else failure

end Read

end Node

/-! ### Documents -/

/-- A document; without a root if nothing is written. -/
structure Document where
  root : Option Node

namespace Document

/-- The handles that every document knows. -/
def knownHandles : List (List Char × Octets) :=
  [(['!'], octetsOf ['!']), (['!', '!'], octetsOf "tag:yaml.org,2002:".toList)]

/-- Takes in the directives before a document.  At most one gives the version, which must be known,
and at most one explains each handle. -/
def readDirectives (hasVersion : Bool) (handles : List (List Char × Octets)) :
    List Token → Option (List (List Char × Octets) × List Token)
  | .directive (.version major minor) :: ts =>
    if hasVersion || major ≠ 1 || (minor ≠ 1 && minor ≠ 2) then none
    else readDirectives true handles ts
  | .directive (.handle name address) :: ts =>
    if (handles.lookup name).isSome then none
    else readDirectives hasVersion (handles ++ [(name, address)]) ts
  | ts => some (handles, ts)

/-- Whether a document that begins with these tokens is empty. -/
def isBare : List Token → Bool
  | [] => true
  | .directive _ :: _ | .documentStart :: _ | .documentEnd :: _ => true
  | _ => false

/-- The document of a list of tokens. -/
def ofTokens? (tokens : List Token) : Option Document :=
  if tokens = [] then some ⟨none⟩
  else do
    let (handles, ts) ← readDirectives false [] tokens
    let fuel := ts.length + 1
    let supply (ts : List Token) : Node.Supply := ⟨ts, handles ++ knownHandles, []⟩
    let (root, s) ←
      match ts with
      | .documentStart :: ts =>
        if isBare ts then some (Node.empty, supply ts)
        else (Node.Read.node fuel true false).run (supply ts)
      | _ =>
        if ts.length = tokens.length then
          (Node.Read.node fuel true false).run (supply ts)
        else none
    if s.tokens.all (· = .documentEnd) then some ⟨some root⟩ else none

/-- The document of a text. -/
def ofText? (text : String) : Option Document := do
  ofTokens? (← Token.ofText? text.toList)

/-- How many marks a document takes. -/
def size (d : Document) : Nat :=
  match d.root with
  | some n => n.size
  | none => 1

/-- The numbered nodes of a document, the last one first. -/
def targets (d : Document) : List (Nat × Node) :=
  match d.root with
  | some n => n.targets.reverse
  | none => []

end Document

end ClusterHerald.Yaml
