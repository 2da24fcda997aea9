/-!
# Places in a YAML text

A place is the text that is left with the number of octets, lines and columns before it.  The
structure of a YAML text depends on all three: keys are limited to a number of octets and to one
line, and blocks are found by their columns, which count characters.

The character classes of YAML are here as well.
-/

namespace ClusterHerald.Yaml

/-- A space or a tab. -/
def isBlank (c : Char) : Bool :=
  c = ' ' || c = '\t'

/-- A character that ends a line. -/
def isBreak (c : Char) : Bool :=
  c = '\n' || c = '\r' || c = '\x85' || c = '\u2028' || c = '\u2029'

/-- A line break as it stands in a value. -/
def breakText (c : Char) : Char :=
  if c = '\r' || c = '\x85' then '\n' else c

/-- A character of a name: an ASCII letter or digit, a dash or an underscore. -/
def isNameChar (c : Char) : Bool :=
  c.isAlphanum || c = '-' || c = '_'

/-- Whether the text goes on with a blank or a line break, or ends. -/
def endsWord : List Char → Bool
  | [] => true
  | c :: _ => isBlank c || isBreak c

/-- Whether the text goes on with a line break or ends. -/
def endsLine : List Char → Bool
  | [] => true
  | c :: _ => isBreak c

/-- Whether a character may stand in a YAML text. -/
def isAllowed (c : Char) : Bool :=
  let n := c.toNat
  n = 0x9 || n = 0xA || n = 0xD || (0x20 ≤ n && n ≤ 0x7E) || n = 0x85 ||
    (0xA0 ≤ n && n ≤ 0xFFFD) || 0x10000 ≤ n

/-- Whether the text goes on with three times a character and then ends a word: such a line
separates documents. -/
def isSeparator (mark : Char) : List Char → Bool
  | a :: b :: c :: rest => a = mark && b = mark && c = mark && endsWord rest
  | _ => false

/-- Whether the text goes on with a line that separates documents. -/
def startsSeparator (cs : List Char) : Bool :=
  isSeparator '-' cs || isSeparator '.' cs

/-- How many octets of UTF-8 a text takes. -/
def octetCount (cs : List Char) : Nat :=
  cs.foldl (fun n c => n + c.utf8Size) 0

/-- A place in a text. -/
structure Place where
  /-- The text that is left. -/
  rest : List Char
  /-- How many octets of UTF-8 are before the place. -/
  octets : Nat
  line : Nat
  column : Nat

namespace Place

/-- The beginning of a text. -/
def start (text : List Char) : Place := ⟨text, 0, 0, 0⟩

/-- After some characters of the same line, which leave `rest`. -/
def along (p : Place) (passed rest : List Char) : Place :=
  ⟨rest, p.octets + octetCount passed, p.line, p.column + passed.length⟩

/-- After some characters that end the line, which leave `rest`. -/
def nextLine (p : Place) (passed rest : List Char) : Place :=
  ⟨rest, p.octets + octetCount passed, p.line + 1, 0⟩

/-- After the next `n` characters of the same line. -/
def skip (p : Place) (n : Nat) : Place :=
  p.along (p.rest.take n) (p.rest.drop n)

/-- The next characters of a class, all on the same line, and the place after them. -/
def span (p : Place) (q : Char → Bool) : List Char × Place :=
  let taken := p.rest.takeWhile q
  (taken, p.along taken (p.rest.dropWhile q))

/-- The place after characters of a class, all on the same line. -/
def skipWhile (p : Place) (q : Char → Bool) : Place :=
  (p.span q).2

/-- The place after a line break, if there is one. -/
def skipBreak (p : Place) : Place :=
  match p.rest with
  | '\r' :: '\n' :: rest => p.nextLine ['\r', '\n'] rest
  | c :: rest => if isBreak c then p.nextLine [c] rest else p
  | [] => p

/-- Skips the rest of a line, if there is nothing on it but blanks and a comment. -/
def endOfLine? (p : Place) : Option Place :=
  let p := p.skipWhile isBlank
  let p := match p.rest with
    | '#' :: _ => p.skipWhile (!isBreak ·)
    | _ => p
  if endsLine p.rest then some p.skipBreak else none

end Place

end ClusterHerald.Yaml
