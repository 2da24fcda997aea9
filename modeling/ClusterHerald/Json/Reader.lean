import ClusterHerald.Json.Basic
import ClusterHerald.Text.Digit

/-!
# Reading JSON text

`Json.read?` reads one document that fills the whole text.  The grammar is the strict one: no
comments, no trailing commas, control characters only as escapes, surrogates only in pairs.

A number without point and exponent is an integer when it fits 64 bits, signed or unsigned; all
others are floating-point, among them `-0` and integers that are too large.

Recursion is bounded by a measure that starts above the length of the text: every call that
returns to a deeper one has consumed a character.
-/

namespace ClusterHerald

namespace Json

namespace Reader

open Text (hexValue?)

/-- Drops the blanks between tokens. -/
def skipBlanks (cs : List Char) : List Char :=
  cs.dropWhile fun c => c = ' ' || c = '\n' || c = '\t' || c = '\r'

/-! ### Numbers -/

/-- The value of a decimal digit. -/
def digitValue (c : Char) : Nat := c.toNat - '0'.toNat

/-- Reads digits onto `acc` while the value stays within `limit`; returns the digits that do not
fit as well. -/
def takeWithin (limit : Nat) : Nat → List Char → Nat × List Char
  | acc, [] => (acc, [])
  | acc, c :: cs =>
    let n := acc * 10 + digitValue c
    if n ≤ limit then takeWithin limit n cs else (acc, c :: cs)

/-- The value of a run of digits. -/
def decimal (ds : List Char) : Nat :=
  ds.foldl (fun n c => n * 10 + digitValue c) 0

/-- The greatest unsigned integer of 64 bits. -/
def maxWord : Nat := UInt64.size - 1

/-- A number without point and exponent. -/
def wholeNumber? (negative : Bool) (digits : List Char) : Option Number :=
  let (n, rest) := takeWithin maxWord 0 digits
  if rest ≠ [] then (Binary64.ofDecimal? negative n rest.length).map .real
  else if !negative then some (.integer n)
  else if n = 0 ∨ Nat.pow 2 63 < n then (Binary64.ofDecimal? negative n 0).map .real
  else some (.integer (-n))

/-- A number with fraction digits or an exponent.  The leading digits that fit 64 bits count, the
others only move the point. -/
def pointedNumber? (negative : Bool) (whole fraction : List Char) (exponent : Int) :
    Option Number :=
  let (n, wholeRest) := takeWithin maxWord 0 whole
  let (m, fractionRest) := takeWithin maxWord n fraction
  let moved : Int := wholeRest.length - (fraction.length - fractionRest.length : Nat)
  (Binary64.ofDecimal? negative m (moved + exponent)).map .real

/-- The exponent after its letter. -/
def exponent? (cs : List Char) : Option (Int × List Char) :=
  let (negative, cs) := match cs with
    | '+' :: r => (false, r)
    | '-' :: r => (true, r)
    | r => (false, r)
  let ds := cs.takeWhile Char.isDigit
  if ds = [] then none
  else
    let n : Int := decimal ds
    some (if negative then -n else n, cs.dropWhile Char.isDigit)

/-- The digits before the point: a single zero, or digits that start with another one. -/
def whole? (cs : List Char) : Option (List Char × List Char) :=
  match cs with
  | '0' :: r => some (['0'], r)
  | cs =>
    let ds := cs.takeWhile Char.isDigit
    if ds = [] then none else some (ds, cs.dropWhile Char.isDigit)

/-- A number literal. -/
def number? (cs : List Char) : Option (Number × List Char) := do
  let (negative, cs) := match cs with
    | '-' :: r => (true, r)
    | r => (false, r)
  let (whole, cs) ← whole? cs
  let (fraction, cs, pointed) ← match cs with
    | '.' :: r =>
      let ds := r.takeWhile Char.isDigit
      if ds = [] then none else some (ds, r.dropWhile Char.isDigit, true)
    | r => some ([], r, false)
  let (exponent, cs, pointed) ← match cs with
    | 'e' :: r | 'E' :: r => do
      let (n, r) ← exponent? r
      some (n, r, true)
    | r => some (0, r, pointed)
  let n ← if pointed then pointedNumber? negative whole fraction exponent
    else wholeNumber? negative whole
  return (n, cs)

/-! ### Strings -/

/-- Four hexadecimal digits. -/
def hex4? : List Char → Option (Nat × List Char)
  | a :: b :: c :: d :: r => do
    let a ← hexValue? a
    let b ← hexValue? b
    let c ← hexValue? c
    let d ← hexValue? d
    some (((a * 16 + b) * 16 + c) * 16 + d, r)
  | _ => none

/-- The character after `\u`; a high surrogate takes the low one that must follow. -/
def codePoint? (cs : List Char) : Option (Char × List Char) := do
  let (n, r) ← hex4? cs
  if 0xD800 ≤ n ∧ n ≤ 0xDBFF then
    match r with
    | '\\' :: 'u' :: r => do
      let (m, r) ← hex4? r
      if 0xDC00 ≤ m ∧ m ≤ 0xDFFF then
        some (Char.ofNat (0x10000 + (n - 0xD800) * 0x400 + (m - 0xDC00)), r)
      else none
    | _ => none
  else if 0xDC00 ≤ n ∧ n ≤ 0xDFFF then none
  else some (Char.ofNat n, r)

/-- The character of a one-letter escape. -/
def escape? : Char → Option Char
  | '"' => some '"'
  | '\\' => some '\\'
  | '/' => some '/'
  | 'b' => some '\x08'
  | 'f' => some '\x0c'
  | 'n' => some '\n'
  | 'r' => some '\r'
  | 't' => some '\t'
  | _ => none

/-- The rest of a string after its opening quote; `acc` holds what was read, last first. -/
def stringBody? : Nat → List Char → List Char → Option (String × List Char)
  | 0, _, _ => none
  | _ + 1, _, [] => none
  | fuel + 1, acc, c :: cs =>
    if c = '"' then some (String.ofList acc.reverse, cs)
    else if c = '\\' then
      match cs with
      | 'u' :: r => (codePoint? r).bind fun (x, r) => stringBody? fuel (x :: acc) r
      | e :: r => (escape? e).bind fun x => stringBody? fuel (x :: acc) r
      | [] => none
    else if c.toNat < 0x20 then none
    else stringBody? fuel (c :: acc) cs

/-- The rest of a string after its opening quote. -/
def string? (cs : List Char) : Option (String × List Char) :=
  stringBody? (cs.length + 1) [] cs

/-! ### Values -/

mutual

/-- One value. -/
def value? : Nat → List Char → Option (Json × List Char)
  | 0, _ => none
  | fuel + 1, cs =>
    match skipBlanks cs with
    | 'n' :: 'u' :: 'l' :: 'l' :: r => some (.null, r)
    | 't' :: 'r' :: 'u' :: 'e' :: r => some (.bool true, r)
    | 'f' :: 'a' :: 'l' :: 's' :: 'e' :: r => some (.bool false, r)
    | '"' :: r => (string? r).map fun (s, r) => (.string s, r)
    | '[' :: r =>
      match skipBlanks r with
      | ']' :: r => some (.array [], r)
      | r => items? fuel [] r
    | '{' :: r =>
      match skipBlanks r with
      | '}' :: r => some (.object [], r)
      | r => members? fuel [] r
    | r => (number? r).map fun (n, r) => (.number n, r)

/-- The items of an array up to its closing bracket. -/
def items? : Nat → List Json → List Char → Option (Json × List Char)
  | 0, _, _ => none
  | fuel + 1, acc, cs =>
    (value? fuel cs).bind fun (v, r) =>
      match skipBlanks r with
      | ',' :: r => items? fuel (v :: acc) r
      | ']' :: r => some (.array (v :: acc).reverse, r)
      | _ => none

/-- The members of an object up to its closing brace. -/
def members? : Nat → List (String × Json) → List Char → Option (Json × List Char)
  | 0, _, _ => none
  | fuel + 1, acc, cs =>
    match skipBlanks cs with
    | '"' :: r => (string? r).bind fun (name, r) =>
      match skipBlanks r with
      | ':' :: r => (value? fuel r).bind fun (v, r) =>
        match skipBlanks r with
        | ',' :: r => members? fuel ((name, v) :: acc) r
        | '}' :: r => some (ofMembers ((name, v) :: acc).reverse, r)
        | _ => none
      | _ => none
    | _ => none

end

end Reader

/-- Reads a text that is one document. -/
def read? (text : String) : Option Json :=
  let cs := text.toList
  match Reader.value? (2 * cs.length + 2) cs with
  | some (v, r) => if Reader.skipBlanks r = [] then some v else none
  | none => none

end Json

end ClusterHerald
