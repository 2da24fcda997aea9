import ClusterHerald.Yaml.Name

/-!
# Tokens of a YAML text

A text is cut into tokens from left to right (`Token.ofText?`).  Two things need more than the next
characters.

* Blocks open and close with the columns of their first tokens, so the columns of the open blocks
  are kept.
* That a token begins a key is known only when a colon follows it.  The place of the last token
  that may begin a key is kept for every level of brackets; the colon then puts a key token before
  it.
-/

namespace ClusterHerald.Yaml

/-- A token. -/
inductive Token where
  | directive (directive : Directive)
  | documentStart
  | documentEnd
  | sequenceOpen
  | mappingOpen
  /-- The end of a block. -/
  | blockEnd
  | bracketOpen
  | bracketClose
  | braceOpen
  | braceClose
  /-- The dash before an item of a block. -/
  | dash
  | comma
  | key
  | value
  | alias (name : String)
  | anchor (name : String)
  | tag (name : TagName)
  | scalar (style : Style) (text : List Char)
deriving DecidableEq

namespace Token

/-- A token that may begin a key. -/
structure PossibleKey where
  /-- Nothing but a key may stand here. -/
  required : Bool
  /-- How many tokens are before it. -/
  position : Nat
  place : Place

/-- A text of which some tokens were read. -/
structure Cutting where
  place : Place
  tokens : Array Token
  /-- The column of the innermost block, -1 if there is none. -/
  indent : Int
  /-- The columns of the blocks around it, the innermost first. -/
  outerIndents : List Int
  /-- Whether a key may begin at the place. -/
  keyAllowed : Bool
  /-- What may be a key on this level of brackets. -/
  possible : Option PossibleKey
  /-- The same for the levels around it, the innermost first. -/
  outerPossible : List (Option PossibleKey)

/-- The longest key, in octets. -/
def maxKeyLength : Nat := 1024

namespace Cutting

/-- Before the first token. -/
def start (text : List Char) : Cutting :=
  ⟨Place.start text, #[], -1, [], true, none, []⟩

/-- Whether the place is between brackets or braces. -/
def inFlow (s : Cutting) : Bool :=
  !s.outerPossible.isEmpty

/-- Adds a token at the end. -/
def push (s : Cutting) (t : Token) : Cutting :=
  { s with tokens := s.tokens.push t }

/-- Adds tokens before the token at a position. -/
def insert (s : Cutting) (position : Nat) (ts : Array Token) : Cutting :=
  { s with tokens := s.tokens.extract 0 position ++ ts ++ s.tokens.extract position s.tokens.size }

/-- Adds a token at the end and goes on after `n` characters. -/
def pushSkip (s : Cutting) (n : Nat) (t : Token) : Cutting :=
  { s.push t with place := s.place.skip n }

/-- Says whether a key may begin at the place. -/
def allow (s : Cutting) (keyAllowed : Bool) : Cutting :=
  { s with keyAllowed := keyAllowed }

/-! ### Blocks -/

/-- Closes the blocks right of a column. -/
def closeBlocks (column : Int) (indent : Int) (tokens : Array Token) :
    List Int → Int × List Int × Array Token
  | [] => (indent, [], tokens)
  | outer :: outers =>
    if column < indent then closeBlocks column outer (tokens.push .blockEnd) outers
    else (indent, outer :: outers, tokens)

/-- Closes the blocks right of a column.  Between brackets columns do not matter. -/
def unroll (s : Cutting) (column : Int) : Cutting :=
  if s.inFlow then s
  else
    let (indent, outer, tokens) := closeBlocks column s.indent s.tokens s.outerIndents
    { s with indent := indent, outerIndents := outer, tokens := tokens }

/-- Whether a block has to open for a token in a column. -/
def opensBlock (s : Cutting) (column : Nat) : Bool :=
  !s.inFlow && s.indent < column

/-- Makes a column that of the innermost block. -/
def nest (s : Cutting) (column : Nat) : Cutting :=
  { s with indent := column, outerIndents := s.indent :: s.outerIndents }

/-- Opens a block at the place, if one has to open there. -/
def openBlock (s : Cutting) (t : Token) : Cutting :=
  if s.opensBlock s.place.column then (s.nest s.place.column).push t else s

/-! ### Keys -/

/-- Gives up what may be a key, unless it has to be one. -/
def dropKey (s : Cutting) : Option Cutting :=
  if s.possible.any (·.required) then none else some { s with possible := none }

/-- Notes that a key may begin at the place. -/
def noteKey (s : Cutting) : Option Cutting :=
  if s.keyAllowed then do
    let s ← s.dropKey
    let required := !s.inFlow && s.indent = s.place.column
    return { s with possible := some ⟨required, s.tokens.size, s.place⟩ }
  else some s

/-- Whether what may be a key still can be one at the place: it is on one line and not too long. -/
def reaches (s : Cutting) (k : PossibleKey) : Bool :=
  k.place.line = s.place.line && s.place.octets ≤ k.place.octets + maxKeyLength

/-- What may be a key at the place. -/
def possible? (s : Cutting) : Option (Option PossibleKey) :=
  match s.possible with
  | none => some none
  | some k =>
    if s.reaches k then some (some k)
    else if k.required then none
    else some none

/-! ### The tokens one by one -/

/-- Goes to the next token.  Gives its place and whether a key may begin there. -/
def gapFrom (inFlow : Bool) (p : Place) (keyAllowed inComment : Bool) :
    List Char → Place × Bool
  | [] => (p.along [] [], keyAllowed)
  | '\r' :: '\n' :: rest =>
    gapFrom inFlow (p.nextLine ['\r', '\n'] rest) (keyAllowed || !inFlow) false rest
  | c :: rest =>
    if isBreak c then gapFrom inFlow (p.nextLine [c] rest) (keyAllowed || !inFlow) false rest
    else if inComment || c = ' ' || (c = '\t' && (inFlow || !keyAllowed)) ||
        (c = '\uFEFF' && p.column = 0) then
      gapFrom inFlow (p.along [c] rest) keyAllowed inComment rest
    else if c = '#' then gapFrom inFlow (p.along [c] rest) keyAllowed true rest
    else (p.along [] (c :: rest), keyAllowed)

/-- Goes to the next token. -/
def skipGap (s : Cutting) : Cutting :=
  let (p, keyAllowed) := gapFrom s.inFlow s.place s.keyAllowed false s.place.rest
  { s with place := p, keyAllowed := keyAllowed }

/-- Closes all blocks and gives up what may be a key. -/
def closeAll (s : Cutting) : Option Cutting := do
  let s ← (s.unroll (-1)).dropKey
  return s.allow false

/-- Reads a bracket or brace that opens. -/
def openFlow (s : Cutting) (t : Token) : Option Cutting := do
  let s ← s.noteKey
  let s := s.pushSkip 1 t
  return { s with
    keyAllowed := true
    possible := none
    outerPossible := s.possible :: s.outerPossible }

/-- Reads a bracket or brace that closes. -/
def closeFlow (s : Cutting) (t : Token) : Option Cutting := do
  let s ← s.dropKey
  let s := (s.pushSkip 1 t).allow false
  match s.outerPossible with
  | [] => return s
  | k :: ks => return { s with possible := k, outerPossible := ks }

/-- Reads a comma. -/
def comma (s : Cutting) : Option Cutting := do
  let s ← s.dropKey
  return (s.pushSkip 1 .comma).allow true

/-- Opens a block at the place, which needs that a key may begin there. -/
def openBlockHere (s : Cutting) (t : Token) : Option Cutting :=
  if s.inFlow then some s
  else if s.keyAllowed then some (s.openBlock t)
  else none

/-- Reads the dash before an item. -/
def dash (s : Cutting) : Option Cutting := do
  let s ← (← s.openBlockHere .sequenceOpen).dropKey
  return (s.pushSkip 1 .dash).allow true

/-- Reads the mark before a key. -/
def keyMark (s : Cutting) : Option Cutting := do
  let s ← (← s.openBlockHere .mappingOpen).dropKey
  return (s.pushSkip 1 .key).allow !s.inFlow

/-- Reads the colon before a value. -/
def valueMark (s : Cutting) : Option Cutting := do
  match ← s.possible? with
  | some k =>
    -- the first key of a block opens it
    let s :=
      if s.opensBlock k.place.column then
        (s.nest k.place.column).insert k.position #[.mappingOpen, .key]
      else s.insert k.position #[.key]
    return ({ s with possible := none }.pushSkip 1 .value).allow false
  -- nothing before the colon can be its key, so the key is empty or was marked
  | none =>
    let s ← { s with possible := none }.openBlockHere .mappingOpen
    return (s.pushSkip 1 .value).allow !s.inFlow

/-- Reads an anchor or alias. -/
def anchor (s : Cutting) (make : String → Token) : Option Cutting := do
  let s ← s.noteKey
  let (name, p) ← anchorName s.place
  return { s.push (make name) with place := p, keyAllowed := false }

/-- Reads a tag. -/
def tag (s : Cutting) : Option Cutting := do
  let s ← s.noteKey
  let (name, p) ← tagName s.inFlow s.place
  return { s.push (.tag name) with place := p, keyAllowed := false }

/-- Where a scalar at the place stands. -/
def context (s : Cutting) : Context :=
  ⟨s.inFlow, s.indent⟩

/-- Reads a plain or quoted scalar. -/
def scalar (s : Cutting) (style : Style) (read : Place → Option Scanned) : Option Cutting := do
  let s ← s.noteKey
  let r ← read s.place
  return { s.push (.scalar style r.value) with place := r.place, keyAllowed := r.brokeLine }

/-- Reads a block scalar. -/
def blockScalar (s : Cutting) (isLiteral : Bool) : Option Cutting := do
  let s ← s.dropKey
  let r ← block isLiteral s.indent s.place
  let style := if isLiteral then Style.literal else Style.folded
  return { s.push (.scalar style r.value) with place := r.place, keyAllowed := true }

/-- Reads a line that separates documents. -/
def separator (s : Cutting) (t : Token) : Option Cutting := do
  let s ← s.closeAll
  return s.pushSkip 3 t

/-- Reads a directive. -/
def readDirective (s : Cutting) : Option Cutting := do
  let s ← s.closeAll
  let (d, p) ← Yaml.directive s.place
  return { s.push (.directive d) with place := p }

/-- The characters that no plain scalar begins with. -/
def indicators : List Char :=
  ['-', '?', ':', ',', '[', ']', '{', '}', '#', '&', '*', '!', '|', '>', '\'', '"', '%', '@',
    '\x60']

/-- Whether a plain scalar begins with `c` before `rest`. -/
def startsPlain (inFlow : Bool) (c : Char) (rest : List Char) : Bool :=
  !(isBlank c || isBreak c || c ∈ indicators) ||
    (c = '-' && !rest.head?.any isBlank) ||
    (!inFlow && (c = '?' || c = ':') && !endsWord rest)

/-- Reads the token that begins with `c` before `rest`. -/
def token (s : Cutting) (c : Char) (rest : List Char) : Option Cutting :=
  if s.place.column = 0 && c = '%' then s.readDirective
  else if s.place.column = 0 && isSeparator '-' (c :: rest) then s.separator .documentStart
  else if s.place.column = 0 && isSeparator '.' (c :: rest) then s.separator .documentEnd
  else if c = '[' then s.openFlow .bracketOpen
  else if c = '{' then s.openFlow .braceOpen
  else if c = ']' then s.closeFlow .bracketClose
  else if c = '}' then s.closeFlow .braceClose
  else if c = ',' then s.comma
  else if c = '-' && endsWord rest then s.dash
  else if c = '?' && (s.inFlow || endsWord rest) then s.keyMark
  else if c = ':' && (s.inFlow || endsWord rest) then s.valueMark
  else if c = '*' then s.anchor .alias
  else if c = '&' then s.anchor .anchor
  else if c = '!' then s.tag
  else if c = '|' && !s.inFlow then s.blockScalar true
  else if c = '>' && !s.inFlow then s.blockScalar false
  else if c = '\'' then s.scalar .singleQuoted single
  else if c = '"' then s.scalar .doubleQuoted double
  else if startsPlain s.inFlow c rest then s.scalar .plain (plain s.context)
  else none

/-- Reads the tokens from a place on, at most `fuel` of them. -/
def run (s : Cutting) : Nat → Option (Array Token)
  | 0 => none
  | fuel + 1 =>
    let s := s.skipGap
    let s := s.unroll s.place.column
    match s.place.rest with
    | [] => s.closeAll.map (·.tokens)
    | c :: rest => (s.token c rest).bind (run · fuel)

end Cutting

/-- The tokens of a text.  Every token takes a character at least. -/
def ofText? (text : List Char) : Option (List Token) :=
  if text.all isAllowed then
    ((Cutting.start text).run (text.length + 1)).map Array.toList
  else none

end Token

end ClusterHerald.Yaml
