/-!
# Request targets

The target of a request in its forms: a path with a query, a full address with a scheme and an
authority before them, an authority alone, and the star that stands for the whole server.

A target is cut into path and query at the first question mark, and what follows a number sign is
dropped.  Nothing is decoded: two spellings of a path are two paths.
-/

namespace ClusterHerald

/-- The target of a request. -/
structure Target where
  path : String
  query : Option String
deriving Repr, DecidableEq

namespace Target

/-- The longest target, in octets. -/
def maxLength : Nat := 65534

/-! ### Paths and queries -/

/-- A character that may stand in a path. -/
def isPathChar (c : Char) : Bool :=
  '!' ≤ c && c ∉ ['#', '<', '>', '?', '\x60']

/-- A character that may stand in a query. -/
def isQueryChar (c : Char) : Bool :=
  '!' ≤ c && c ∉ ['"', '#', '<', '>']

/-- Reads a path with a query. -/
def ofPath? (cs : List Char) : Option Target :=
  let path := String.ofList (cs.takeWhile isPathChar)
  match cs.dropWhile isPathChar with
  | [] | '#' :: _ => some ⟨path, none⟩
  | '?' :: rest =>
    let query := String.ofList (rest.takeWhile isQueryChar)
    match rest.dropWhile isQueryChar with
    | [] | '#' :: _ => some ⟨path, some query⟩
    | _ => none
  | _ => none

/-! ### Authorities -/

/-- The most colons in a part of an authority: those of an address of eight groups with a port. -/
def maxColons : Nat := 8

/-- What is known of an authority while it is read.  Colons and percent signs count from the last
bracket or at sign, which show what those before them were. -/
structure AuthoritySeen where
  colons : Nat
  percent : Bool
  opened : Bool
  closed : Bool

/-- A character of an authority that has no meaning of its own. -/
def isAuthorityChar (c : Char) : Bool :=
  c.isAlphanum || "!$&'()*+,-.;=_~".toList.contains c

/-- Reads one character of an authority. -/
def AuthoritySeen.next? (s : AuthoritySeen) (c : Char) : Option AuthoritySeen :=
  match c with
  | ':' => if s.colons < maxColons then some { s with colons := s.colons + 1 } else none
  | '[' => if s.percent || s.opened then none else some { s with opened := true }
  | ']' =>
    if s.opened && !s.closed then some { s with closed := true, colons := 0, percent := false }
    else none
  | '@' => some { s with colons := 0, percent := false }
  | '%' => some { s with percent := true }
  | c => if isAuthorityChar c then some s else none

/-- Whether a text is an authority, which may be empty: perhaps a user, a host, perhaps a port. -/
def isAuthority (cs : List Char) : Bool :=
  match cs.foldlM AuthoritySeen.next? ⟨0, false, false, false⟩ with
  | some s => s.opened == s.closed && s.colons ≤ 1 && !s.percent && cs.getLast? ≠ some '@'
  | none => false

/-- A character that ends an authority. -/
def endsAuthority (c : Char) : Bool :=
  c = '/' || c = '?' || c = '#'

/-! ### Full addresses -/

/-- A character of a scheme. -/
def isSchemeChar (c : Char) : Bool :=
  c.isAlphanum || c = '+' || c = '-' || c = '.' || c = '~'

/-- The longest scheme. -/
def maxSchemeLength : Nat := 64

/-- Reads what follows a scheme.  A host needs no path, and then has the path of its root. -/
def ofHost? (cs : List Char) : Option Target :=
  let host := cs.takeWhile (!endsAuthority ·)
  if host.isEmpty || !isAuthority host then none
  else
    (ofPath? (cs.dropWhile (!endsAuthority ·))).map fun t =>
      if t.path = "" then { t with path := "/" } else t

/-- Reads a target. -/
def parse? (text : String) : Option Target :=
  if maxLength < text.utf8ByteSize then none
  else
    let cs := text.toList
    match cs with
    | [] => none
    | ['*'] => some ⟨"*", none⟩
    | '/' :: _ => ofPath? cs
    | _ =>
      match cs.dropWhile isSchemeChar with
      | ':' :: '/' :: '/' :: rest =>
        if (cs.takeWhile isSchemeChar).length ≤ maxSchemeLength then ofHost? rest else none
      | _ => if isAuthority cs then some ⟨"", none⟩ else none

/-- The items of the query. -/
def queryItems (t : Target) : List String :=
  (t.query.getD "").splitOn "&"

end Target

/-- A character of a method. -/
def isMethodChar (c : Char) : Bool :=
  c.isAlphanum || "!#$%&'*+-.^_\x60|~".toList.contains c

/-- Whether a text is a method. -/
def isMethod (text : String) : Bool :=
  text ≠ "" && text.toList.all isMethodChar

end ClusterHerald
