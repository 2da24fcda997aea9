import ClusterHerald.Text.Digit
import ClusterHerald.Yaml.Place

/-!
# Scalars of a YAML text

A scalar is a value without parts.  It is written plainly, between quotes, or as a block of lines.
Each reader goes through the text character by character and gives the value with the place after
it.

Within plain and quoted scalars, the blanks and breaks between two words are a `Gap`: blanks on one
line are kept, a single line break stands for a space, and of several breaks all but the first are
kept.
-/

namespace ClusterHerald.Yaml

open Text (hexValue?)

/-- How a scalar is written. -/
inductive Style where
  | plain
  | singleQuoted
  | doubleQuoted
  | literal
  | folded
deriving Repr, DecidableEq

/-! ### Gaps -/

/-- Blanks and line breaks between two words. -/
structure Gap where
  /-- The blanks, if there is no line break. -/
  blanks : List Char
  /-- There is a line break. -/
  isBroken : Bool
  /-- The first line break, unless it was escaped. -/
  first : List Char
  /-- The other line breaks. -/
  others : List Char

namespace Gap

/-- No gap. -/
def none : Gap := ⟨[], false, [], []⟩

/-- A line break that was escaped. -/
def escaped : Gap := ⟨[], true, [], []⟩

/-- The gap with one more blank. -/
def blank (g : Gap) (c : Char) : Gap :=
  if g.isBroken then g else { g with blanks := g.blanks ++ [c] }

/-- The gap with one more line break. -/
def lineBreak (g : Gap) (c : Char) : Gap :=
  if g.isBroken then { g with others := g.others ++ [breakText c] }
  else ⟨[], true, [breakText c], g.others⟩

/-- What the gap stands for. -/
def text (g : Gap) : List Char :=
  if g.isBroken then
    if g.first = ['\n'] then if g.others = [] then [' '] else g.others
    else g.first ++ g.others
  else g.blanks

end Gap

/-! ### Plain scalars -/

/-- Where a scalar stands. -/
structure Context where
  /-- It stands between brackets or braces. -/
  inFlow : Bool
  /-- The column of the block around it, -1 if there is none. -/
  indent : Int

/-- What a reader gives: the value, the place after it, and whether a line was ended. -/
structure Scanned where
  value : List Char
  place : Place
  brokeLine : Bool

/-- The characters that structure text between brackets or braces. -/
def flowMarks : List Char := [',', '[', ']', '{', '}']

/-- Whether a colon at the head of the text ends a plain scalar. -/
def colonEnds (rest : List Char) : Bool :=
  endsWord rest

/-- Whether a colon at the head of text between brackets is out of place. -/
def colonMisplaced : List Char → Bool
  | c :: _ => c = '?' || c ∈ flowMarks
  | [] => false

/-- Reads a plain scalar.  `value` is what was read so far, the last character first; `inGap` tells
whether a gap was begun. -/
def plainFrom (ctx : Context) (p : Place) (value : List Char) (inGap : Bool) (gap : Gap) :
    List Char → Option Scanned
  | [] => some ⟨value.reverse, p.along [] [], gap.isBroken⟩
  | '\r' :: '\n' :: rest =>
    plainFrom ctx (p.nextLine ['\r', '\n'] rest) value true (gap.lineBreak '\n') rest
  | c :: rest =>
    let stop : Option Scanned := some ⟨value.reverse, p.along [] (c :: rest), gap.isBroken⟩
    if isBlank c then
      if gap.isBroken && c = '\t' && (p.column : Int) < ctx.indent + 1 then none
      else plainFrom ctx (p.along [c] rest) value true (gap.blank c) rest
    else if isBreak c then
      plainFrom ctx (p.nextLine [c] rest) value true (gap.lineBreak c) rest
    -- after a gap the scalar goes on only right of the block around it
    else if inGap && !ctx.inFlow && (p.column : Int) < ctx.indent + 1 then stop
    else if inGap && (c = '#' || (p.column = 0 && startsSeparator (c :: rest))) then stop
    else if ctx.inFlow && c = ':' && colonMisplaced rest then none
    else if (c = ':' && colonEnds rest) || (ctx.inFlow && c ∈ flowMarks) then stop
    else
      plainFrom ctx (p.along [c] rest) (c :: (gap.text.reverse ++ value)) false Gap.none rest

/-- Reads a plain scalar. -/
def plain (ctx : Context) (p : Place) : Option Scanned :=
  plainFrom ctx p [] false Gap.none p.rest

/-! ### Quoted scalars -/

/-- Reads a scalar between single quotes, after the first of them. -/
def singleFrom (p : Place) (value : List Char) (inGap : Bool) (gap : Gap) :
    List Char → Option Scanned
  | [] => none
  | '\r' :: '\n' :: rest =>
    singleFrom (p.nextLine ['\r', '\n'] rest) value true (gap.lineBreak '\n') rest
  | '\'' :: '\'' :: rest =>
    singleFrom (p.along ['\'', '\''] rest) ('\'' :: (gap.text.reverse ++ value)) false Gap.none rest
  | c :: rest =>
    if isBlank c then singleFrom (p.along [c] rest) value true (gap.blank c) rest
    else if isBreak c then singleFrom (p.nextLine [c] rest) value true (gap.lineBreak c) rest
    else if inGap && p.column = 0 && startsSeparator (c :: rest) then none
    else if c = '\'' then some ⟨(gap.text.reverse ++ value).reverse, p.along [c] rest, false⟩
    else singleFrom (p.along [c] rest) (c :: (gap.text.reverse ++ value)) false Gap.none rest

/-- Reads a scalar between single quotes. -/
def single (p : Place) : Option Scanned :=
  singleFrom (p.skip 1) [] false Gap.none (p.skip 1).rest

/-- The character that an escape of one letter stands for. -/
def escaped? : Char → Option Char
  | '0' => some '\x00'
  | 'a' => some '\x07'
  | 'b' => some '\x08'
  | 't' | '\t' => some '\t'
  | 'n' => some '\n'
  | 'v' => some '\x0b'
  | 'f' => some '\x0c'
  | 'r' => some '\r'
  | 'e' => some '\x1b'
  | ' ' => some ' '
  | '"' => some '"'
  | '/' => some '/'
  | '\\' => some '\\'
  | 'N' => some '\x85'
  | '_' => some '\xa0'
  | 'L' => some '\u2028'
  | 'P' => some '\u2029'
  | _ => none

/-- How many hexadecimal digits follow an escape by a number. -/
def codeLength? : Char → Option Nat
  | 'x' => some 2
  | 'u' => some 4
  | 'U' => some 8
  | _ => none

/-- The character of a code point. -/
def charOf? (code : Nat) : Option Char :=
  if h : code.isValidChar then some (Char.ofNatAux code h) else none

/-- What a reader of double quotes is in the middle of. -/
inductive QuoteMode where
  | word
  | gap
  /-- After a backslash. -/
  | escape
  /-- Within a number of which `left` digits are to come. -/
  | code (value left : Nat)

/-- Reads a scalar between double quotes, after the first of them. -/
def doubleFrom (p : Place) (value : List Char) (mode : QuoteMode) (gap : Gap) :
    List Char → Option Scanned
  | [] => none
  | '\r' :: '\n' :: rest =>
    match mode with
    | .word | .gap => doubleFrom (p.nextLine ['\r', '\n'] rest) value .gap (gap.lineBreak '\n') rest
    | .escape => doubleFrom (p.nextLine ['\r', '\n'] rest) value .gap Gap.escaped rest
    | .code .. => none
  | c :: rest =>
    match mode with
    | .escape =>
      if isBreak c then doubleFrom (p.nextLine [c] rest) value .gap Gap.escaped rest
      else
        match escaped? c, codeLength? c with
        | some d, _ => doubleFrom (p.along [c] rest) (d :: value) .word Gap.none rest
        | none, some n => doubleFrom (p.along [c] rest) value (.code 0 n) Gap.none rest
        | none, none => none
    | .code code left =>
      match hexValue? c with
      | none => none
      | some d =>
        if left = 1 then
          match charOf? (code * 16 + d) with
          | some d => doubleFrom (p.along [c] rest) (d :: value) .word Gap.none rest
          | none => none
        else doubleFrom (p.along [c] rest) value (.code (code * 16 + d) (left - 1)) Gap.none rest
    | .word | .gap =>
      let inGap := mode matches .gap
      if isBlank c then doubleFrom (p.along [c] rest) value .gap (gap.blank c) rest
      else if isBreak c then doubleFrom (p.nextLine [c] rest) value .gap (gap.lineBreak c) rest
      else if inGap && p.column = 0 && startsSeparator (c :: rest) then none
      else
        let value := gap.text.reverse ++ value
        if c = '"' then some ⟨value.reverse, p.along [c] rest, false⟩
        else if c = '\\' then doubleFrom (p.along [c] rest) value .escape Gap.none rest
        else doubleFrom (p.along [c] rest) (c :: value) .word Gap.none rest

/-- Reads a scalar between double quotes. -/
def double (p : Place) : Option Scanned :=
  doubleFrom (p.skip 1) [] .word Gap.none (p.skip 1).rest

/-! ### Block scalars -/

/-- Which line breaks at the end of a block are kept. -/
inductive Chomping where
  | strip
  | clip
  | keep
deriving DecidableEq

/-- The chomping that a mark asks for. -/
def Chomping.ofMark? : Char → Option Chomping
  | '+' => some .keep
  | '-' => some .strip
  | _ => none

/-- The first line of a block: chomping and added indentation. -/
structure BlockHeader where
  chomping : Chomping
  indent : Option Nat

/-- The indentation that a digit asks for; it is not zero. -/
def indentOf? (c : Char) : Option Nat :=
  if '1' ≤ c ∧ c ≤ '9' then some (c.toNat - '0'.toNat) else none

/-- Reads the marks after the indicator of a block. -/
def blockHeader (p : Place) : Option (BlockHeader × Place) :=
  match p.rest with
  | [] => some (⟨.clip, none⟩, p)
  | c :: rest =>
    match Chomping.ofMark? c with
    | some chomping =>
      match rest with
      | d :: _ =>
        if d.isDigit then (indentOf? d).map fun n => (⟨chomping, some n⟩, p.skip 2)
        else some (⟨chomping, none⟩, p.skip 1)
      | [] => some (⟨chomping, none⟩, p.skip 1)
    | none =>
      if c.isDigit then do
        let n ← indentOf? c
        match rest.head?.bind Chomping.ofMark? with
        | some chomping => return (⟨chomping, some n⟩, p.skip 2)
        | none => return (⟨.clip, some n⟩, p.skip 1)
      else some (⟨.clip, none⟩, p)

/-- A block of which some lines were read. -/
structure Block where
  /-- The value so far, the last character first. -/
  value : List Char
  /-- The column of the block; 0 while it is not known. -/
  indent : Nat
  /-- The longest run of blanks that was seen while the column was not known. -/
  widest : Nat
  /-- The last line begins with a blank. -/
  blankStart : Bool
  /-- The break after the last line. -/
  first : List Char
  /-- The breaks after that. -/
  others : List Char

/-- What a reader of blocks is in the middle of. -/
inductive BlockMode where
  /-- Before the first character of a line. -/
  | margin
  | line

namespace Block

/-- The block with its column known, which lies right of the column around it. -/
def fixIndent (b : Block) (around : Int) (column : Nat) : Block :=
  if b.indent ≠ 0 then b
  else { b with indent := max (max (max b.widest column) (around + 1).toNat) 1 }

/-- The block at the beginning of a line. -/
def openLine (b : Block) (isLiteral startsBlank : Bool) : Block :=
  -- lines that begin with a blank are kept apart from their neighbours
  let folds := !isLiteral && b.first = ['\n'] && !b.blankStart && !startsBlank
  let gap :=
    if folds then if b.others = [] then [' '] else b.others
    else b.first ++ b.others
  { b with value := gap.reverse ++ b.value, blankStart := startsBlank, first := [], others := [] }

/-- The value of a block that has ended. -/
def close (b : Block) (chomping : Chomping) : List Char :=
  b.value.reverse ++
    match chomping with
    | .strip => []
    | .clip => b.first
    | .keep => b.first ++ b.others

end Block

/-- Reads the lines of a block within the column `around`. -/
def blockFrom (isLiteral : Bool) (around : Int) (p : Place) (b : Block) (mode : BlockMode) :
    List Char → Option (Block × Place)
  | [] => some (b, p.along [] [])
  | '\r' :: '\n' :: rest =>
    let p' := p.nextLine ['\r', '\n'] rest
    match mode with
    | .margin =>
      let b := { b with others := b.others ++ ['\n'], widest := max b.widest p.column }
      blockFrom isLiteral around p' b .margin rest
    | .line => blockFrom isLiteral around p' { b with first := ['\n'] } .margin rest
  | c :: rest =>
    match mode with
    | .margin =>
      -- while the column is not known, every space may belong to the margin
      let inMargin := b.indent = 0 || p.column < b.indent
      if inMargin && c = ' ' then blockFrom isLiteral around (p.along [c] rest) b .margin rest
      else if inMargin && c = '\t' then none
      else if isBreak c then
        let b := { b with others := b.others ++ [breakText c], widest := max b.widest p.column }
        blockFrom isLiteral around (p.nextLine [c] rest) b .margin rest
      else
        let b := b.fixIndent around p.column
        if p.column = b.indent then
          let b := b.openLine isLiteral (isBlank c)
          blockFrom isLiteral around (p.along [c] rest) { b with value := c :: b.value } .line rest
        else some (b, p.along [] (c :: rest))
    | .line =>
      if isBreak c then
        blockFrom isLiteral around (p.nextLine [c] rest) { b with first := [breakText c] } .margin
          rest
      else blockFrom isLiteral around (p.along [c] rest) { b with value := c :: b.value } .line rest

/-- Reads a block scalar within the column `around`. -/
def block (isLiteral : Bool) (around : Int) (p : Place) : Option Scanned := do
  let (header, p) ← blockHeader (p.skip 1)
  let p ← p.endOfLine?
  let indent := match header.indent with
    | some n => if 0 ≤ around then around.toNat + n else n
    | none => 0
  let (b, p) ← blockFrom isLiteral around p ⟨[], indent, 0, false, [], []⟩ .margin p.rest
  return ⟨b.close header.chomping, p, true⟩

end ClusterHerald.Yaml
