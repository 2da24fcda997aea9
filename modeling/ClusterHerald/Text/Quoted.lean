import ClusterHerald.Text.Invisible

/-!
# Quoted text

A text between double quotes, as messages show names that may hold anything.  The quote and the
backslash are written after a backslash, some control characters by a letter, other characters
without a shape by their code point in hexadecimal.  An apostrophe stays as it is.
-/

namespace ClusterHerald.Text

/-- A code point in hexadecimal, as `\u{…}`. -/
def codePoint (c : Char) : List Char :=
  ['\\', 'u', '\x7b'] ++ Nat.toDigits 16 c.toNat ++ ['\x7d']

/-- A character inside quotes. -/
def quotedChar (c : Char) : List Char :=
  if c = '"' then ['\\', '"']
  else if c = '\\' then ['\\', '\\']
  else if c = '\n' then ['\\', 'n']
  else if c = '\t' then ['\\', 't']
  else if c = '\r' then ['\\', 'r']
  else if c = '\x00' then ['\\', '0']
  else if isInvisible c then codePoint c
  else [c]

/-- A text in double quotes. -/
def quoted (s : String) : String :=
  "\"" ++ String.ofList (s.toList.flatMap quotedChar) ++ "\""

end ClusterHerald.Text
