import ClusterHerald.Text.Digit

/-!
# Addresses to listen on

An address is a host and a port with a colon between them.  A host in brackets is made of
hexadecimal groups.  Any other host is looked up: it may be a number of one to four parts, groups
without brackets, or the name that every machine has for itself.

`Address.isOwn` tells whether one can listen there on a machine without a network.
-/

namespace ClusterHerald

/-- The host of an address. -/
inductive Host where
  /-- A host of 32 bits. -/
  | short (bits : Nat)
  /-- A host of eight groups of 16 bits. -/
  | long (groups : List Nat)
deriving Repr, DecidableEq

namespace Host

open Text

/-! ### Numbers in parts -/

/-- A part: octal after a zero, hexadecimal after a zero and an x, else decimal. -/
def part? : List Char → Option Nat
  | '0' :: 'x' :: digits | '0' :: 'X' :: digits => number? 16 digits
  | '0' :: digits => number? 8 ('0' :: digits)
  | digits => number? 10 digits

/-- The host of at most four parts.  Each is an octet, but the last one fills what is left. -/
def ofParts? (parts : List Nat) : Option Host := do
  let last ← parts.getLast?
  let octets := parts.dropLast
  let room := Nat.pow 256 (4 - octets.length)
  if octets.length < 4 && octets.all (· < 256) && last < room then
    some (.short (octets.foldl (fun n octet => n * 256 + octet) 0 * room + last))
  else none

/-- Reads a host of 32 bits. -/
def short? (text : String) : Option Host := do
  ofParts? (← (text.splitOn ".").mapM (part? ·.toList))

/-! ### Groups -/

/-- An octet in decimal, without a zero before it. -/
def octet? (text : String) : Option Nat :=
  match text.toList with
  | '0' :: _ :: _ => none
  | digits => (number? 10 digits).filter (· < 256)

/-- Four octets as two groups. -/
def dotted? (text : String) : Option (List Nat) := do
  match ← (text.splitOn ".").mapM octet? with
  | [a, b, c, d] => some [a * 256 + b, c * 256 + d]
  | _ => none

/-- A group. -/
def group? (text : String) : Option Nat :=
  if text.length ≤ 4 then number? 16 text.toList else none

/-- Reads groups.  The last two may be four octets where `dottedEnd` says so. -/
def groups? (dottedEnd : Bool) : List String → Option (List Nat)
  | [] => some []
  | [text] =>
    match group? text with
    | some group => some [group]
    | none => if dottedEnd then dotted? text else none
  | text :: texts => do return (← group? text) :: (← groups? dottedEnd texts)

/-- Reads groups with colons between them, perhaps none. -/
def groupsOf? (dottedEnd : Bool) (text : String) : Option (List Nat) :=
  if text = "" then some [] else groups? dottedEnd (text.splitOn ":")

/-- Reads eight groups; a double colon stands for groups of zeros. -/
def eightGroups? (text : String) : Option Host := do
  match text.splitOn "::" with
  | [all] =>
    let groups ← groupsOf? true all
    if groups.length = 8 then some (.long groups) else none
  | [before, behind] =>
    let before ← groupsOf? false before
    let behind ← groupsOf? true behind
    let count := before.length + behind.length
    if count < 8 then some (.long (before ++ List.replicate (8 - count) 0 ++ behind)) else none
  | _ => none

/-- Reads a host of groups, perhaps with the number of the network that it is meant on. -/
def long? (text : String) : Option Host :=
  match text.splitOn "%" with
  | [text] => eightGroups? text
  | [text, zone] =>
    if ((number? 10 zone.toList).filter (· < UInt32.size)).isSome then eightGroups? text else none
  | _ => none

/-! ### Hosts -/

/-- Looks a host up. -/
def find? (text : String) : Option Host :=
  (short? text).or <| (long? text).or <|
    if text.toLower = "localhost" then some (.short 0x7F000001) else none

/-- Whether a host of 32 bits belongs to the machine itself, to all machines or to a group. -/
def isOwnShort (bits : Nat) : Bool :=
  bits = 0 || bits / 0x1000000 = 127 || bits / 0x10000000 = 0xE || bits = 0xFFFFFFFF

/-- Whether one can listen there on a machine without a network. -/
def isOwn : Host → Bool
  | .short bits => isOwnShort bits
  | .long [0, 0, 0, 0, 0, 0, 0, 0] => true
  -- a host of 32 bits in the long form
  | .long [0, 0, 0, 0, 0, 0xFFFF, a, b] => isOwnShort (a * 0x10000 + b)
  | .long _ => false

end Host

/-- Where one listens. -/
structure Address where
  host : Host
  port : Nat
deriving Repr, DecidableEq

namespace Address

/-- Reads a port. -/
def port? (digits : List Char) : Option Nat :=
  (Text.number? 10 digits).filter (· < 65536)

/-- Reads a port that may have a plus sign. -/
def signedPort? : List Char → Option Nat
  | '+' :: digits => port? digits
  | digits => port? digits

/-- Reads an address with its host in brackets. -/
def bracketed? : List Char → Option Address
  | '[' :: cs =>
    match cs.dropWhile (· ≠ ']') with
    | ']' :: ':' :: digits => do
      return ⟨← Host.long? (String.ofList (cs.takeWhile (· ≠ ']'))), ← port? digits⟩
    | _ => none
  | _ => none

/-- Reads an address whose host is looked up; the last colon is the one before the port. -/
def named? (cs : List Char) : Option Address :=
  match cs.reverse.dropWhile (· ≠ ':') with
  | ':' :: host => do
    let digits := (cs.reverse.takeWhile (· ≠ ':')).reverse
    return ⟨← Host.find? (String.ofList host.reverse), ← signedPort? digits⟩
  | _ => none

/-- Reads an address. -/
def parse? (text : String) : Option Address :=
  (bracketed? text.toList).or (named? text.toList)

end Address

end ClusterHerald
