import ClusterHerald.Json.Basic

/-!
# Writing JSON text

`Json.render` writes a document without blanks.  Members stand in the order of the object, so the
text of an ordered document depends on its content alone.
-/

namespace ClusterHerald

namespace Json

namespace Writer

/-- A digit of `\u00xx`. -/
def hexDigit (n : Nat) : Char :=
  Nat.digitChar n

/-- A character inside quotes: the quote, the backslash and control characters are escaped. -/
def escaped (c : Char) : List Char :=
  if c = '"' then ['\\', '"']
  else if c = '\\' then ['\\', '\\']
  else if c = '\n' then ['\\', 'n']
  else if c = '\r' then ['\\', 'r']
  else if c = '\t' then ['\\', 't']
  else if c = '\x08' then ['\\', 'b']
  else if c = '\x0c' then ['\\', 'f']
  else if c.toNat < 0x20 then
    ['\\', 'u', '0', '0', hexDigit (c.toNat / 16), hexDigit (c.toNat % 16)]
  else [c]

/-- A text in quotes. -/
def quoted (s : String) : String :=
  "\"" ++ String.ofList (s.toList.flatMap escaped) ++ "\""

/-- The text of a number. -/
def number : Number → String
  | .integer n => toString n
  | .real x => x.render

end Writer

mutual

/-- Writes `v` after the text `acc`. -/
def renderOnto (acc : String) : Json → String
  | .null => acc ++ "null"
  | .bool true => acc ++ "true"
  | .bool false => acc ++ "false"
  | .number n => acc ++ Writer.number n
  | .string s => acc ++ Writer.quoted s
  | .array items => renderItems (acc ++ "[") true items ++ "]"
  | .object members => renderMembers (acc ++ "\x7b") true members ++ "\x7d"

/-- Writes the items of an array, each but the first after a comma. -/
def renderItems (acc : String) (first : Bool) : List Json → String
  | [] => acc
  | v :: vs => renderItems (renderOnto (if first then acc else acc ++ ",") v) false vs

/-- Writes the members of an object, each but the first after a comma. -/
def renderMembers (acc : String) (first : Bool) : List (String × Json) → String
  | [] => acc
  | (name, v) :: ms =>
    let acc := if first then acc else acc ++ ","
    renderMembers (renderOnto (acc ++ Writer.quoted name ++ ":") v) false ms

end

/-- The text of a document. -/
def render (v : Json) : String :=
  renderOnto "" v

end Json

end ClusterHerald
