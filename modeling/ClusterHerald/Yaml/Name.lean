import ClusterHerald.Yaml.Scalar

/-!
# Names in a YAML text

Anchors and aliases name nodes, tags name types, and directives say how the text is to be read.

A tag is written with a handle and a suffix, as `!handle!suffix`, `!suffix` or `!<suffix>`.  It
stands for the octets of an address, in which `%` and two hexadecimal digits stand for one octet.
-/

namespace ClusterHerald.Yaml

open Text (hexValue?)

/-- The octets of a tag. -/
abbrev Octets := List UInt8

/-- The octets of an ASCII text. -/
def octetsOf (text : List Char) : Octets :=
  text.map fun c => UInt8.ofNat c.toNat

/-! ### Anchors and aliases -/

/-- The characters that may follow an anchor directly. -/
def anchorEnds : List Char := ['?', ':', ',', ']', '}', '%', '@', '\x60']

/-- Reads the name after the mark of an anchor or alias. -/
def anchorName (p : Place) : Option (String × Place) :=
  let (name, p) := (p.skip 1).span isNameChar
  let ends := match p.rest with
    | c :: _ => isBlank c || isBreak c || c ∈ anchorEnds
    | [] => true
  if name ≠ [] && ends then some (String.ofList name, p) else none

/-! ### Tags -/

/-- The punctuation of an address. -/
def uriMarks : List Char :=
  [';', '/', '?', ':', '@', '&', '=', '+', '$', '.', '!', '~', '*', '\'', '(', ')']

/-- A character that may stand in an address.  Between angle brackets there are more of them. -/
def isUriChar (bracketed : Bool) (c : Char) : Bool :=
  isNameChar c || c ∈ uriMarks || (bracketed && (c = ',' || c = '[' || c = ']'))

/-- How many octets follow the first octet of a character in UTF-8. -/
def following? (octet : Nat) : Option Nat :=
  if octet < 0x80 then some 0
  else if octet / 0x20 = 0x6 then some 1
  else if octet / 0x10 = 0xE then some 2
  else if octet / 0x8 = 0x1E then some 3
  else none

/-- Reads an address.  `octets` is what was read so far, the last octet first; `left` octets of a
character are to come, and they are escaped as its first one was. -/
def uriFrom (bracketed : Bool) (p : Place) (left : Nat) (octets : Octets) :
    List Char → Option (Octets × Place)
  | '%' :: a :: b :: rest => do
    let octet := (← hexValue? a) * 16 + (← hexValue? b)
    let left ←
      if left = 0 then following? octet
      else if octet / 0x40 = 0x2 then some (left - 1)
      else none
    uriFrom bracketed (p.along ['%', a, b] rest) left (UInt8.ofNat octet :: octets) rest
  | [] => if left = 0 then some (octets.reverse, p.along [] []) else none
  | c :: rest =>
    if left ≠ 0 || c = '%' then none
    else if isUriChar bracketed c then
      uriFrom bracketed (p.along [c] rest) 0 (UInt8.ofNat c.toNat :: octets) rest
    else some (octets.reverse, p.along [] (c :: rest))

/-- Reads an address that is not empty. -/
def uri (bracketed : Bool) (p : Place) : Option (Octets × Place) := do
  let (octets, p) ← uriFrom bracketed p 0 [] p.rest
  if octets = [] then none else some (octets, p)

/-- Reads what may be a handle: an exclamation mark, a name, and a second mark if there is one. -/
def handle (p : Place) : Option (List Char × Place) :=
  match p.rest with
  | '!' :: _ =>
    let (name, p) := (p.skip 1).span isNameChar
    match p.rest with
    | '!' :: _ => some ('!' :: name ++ ['!'], p.skip 1)
    | _ => some ('!' :: name, p)
  | _ => none

/-- A tag as it is written. -/
structure TagName where
  /-- The handle; empty if the suffix is all of the tag. -/
  handle : List Char
  suffix : Octets
deriving DecidableEq

/-- The octets up to the first that is zero, which ends a tag. -/
def beforeZero (octets : Octets) : Octets :=
  octets.takeWhile (· ≠ 0)

/-- Whether what was read as a handle has both of its marks. -/
def isHandle (name : List Char) : Bool :=
  name.length > 1 && name.getLast? = some '!'

/-- Reads a tag. -/
def tagName (inFlow : Bool) (p : Place) : Option (TagName × Place) := do
  let (tag, p) ← match p.rest with
    | _ :: '<' :: _ => do
      let (suffix, p) ← uri true (p.skip 2)
      match p.rest with
      | '>' :: _ => some (TagName.mk [] (beforeZero suffix), p.skip 1)
      | _ => none
    | _ => do
      let (name, p) ← handle p
      if isHandle name then
        let (suffix, p) ← uri false p
        return (TagName.mk name (beforeZero suffix), p)
      else
        let (more, p) ← uriFrom false p 0 [] p.rest
        let suffix := beforeZero (octetsOf (name.drop 1) ++ more)
        return (if suffix = [] then ⟨[], octetsOf ['!']⟩ else ⟨['!'], suffix⟩, p)
  let ends := endsWord p.rest || (inFlow && p.rest.head? = some ',')
  if ends then some (tag, p) else none

/-! ### Directives -/

/-- A line that says how the text is to be read. -/
inductive Directive where
  /-- The version of YAML. -/
  | version (major minor : Nat)
  /-- What a handle of tags stands for. -/
  | handle (name : List Char) (address : Octets)
deriving DecidableEq

/-- The most digits that a version number has. -/
def maxVersionDigits : Nat := 9

/-- Reads a version number. -/
def versionNumber (p : Place) : Option (Nat × Place) :=
  let (digits, p) := p.span Char.isDigit
  if digits = [] || digits.length > maxVersionDigits then none
  else some (digits.foldl (fun n d => n * 10 + (d.toNat - '0'.toNat)) 0, p)

/-- Reads a directive, up to the end of its line. -/
def directive (p : Place) : Option (Directive × Place) := do
  let (name, p) := (p.skip 1).span isNameChar
  if !endsWord p.rest then none
  else
    let p := p.skipWhile isBlank
    let (found, p) ←
      if name = ['Y', 'A', 'M', 'L'] then do
        let (major, p) ← versionNumber p
        match p.rest with
        | '.' :: _ =>
          let (minor, p) ← versionNumber (p.skip 1)
          some (Directive.version major minor, p)
        | _ => none
      else if name = ['T', 'A', 'G'] then do
        let (name, p) ← handle p
        if !isHandle name && name ≠ ['!'] then none
        else
          match p.rest with
          | c :: _ =>
            if isBlank c then
              let (address, p) ← uri true (p.skipWhile isBlank)
              if endsWord p.rest then some (Directive.handle name (beforeZero address), p) else none
            else none
          | [] => none
      else none
    let p ← p.endOfLine?
    return (found, p)

end ClusterHerald.Yaml
