import ClusterHerald.Text.Blank

/-!
# Instants

A point of time is a count of seconds since the start of 1970 in universal time and a count of
nanoseconds; in a leap second the nanoseconds go on from one to two thousand million.

`Instant.read?` takes the internet date format and forms close to it: a space or a small `t`
between date and time, blanks before numbers, separators and offset, numbers that are not padded,
signed years of any length, offsets without a colon, and any number of fraction digits, of which
nine count.  `Instant.render` writes universal time in whole seconds.
-/

namespace ClusterHerald

/-- A point of time. -/
structure Instant where
  /-- Seconds since the start of 1970, rounded down. -/
  seconds : Int
  /-- Nanoseconds; a thousand million and more in a leap second. -/
  nanos : Nat
deriving DecidableEq, Repr, Inhabited

namespace Instant

/-- Whether `a` is `b` or earlier. -/
def notAfter (a b : Instant) : Bool :=
  a.seconds < b.seconds || (a.seconds = b.seconds && a.nanos ≤ b.nanos)

/-! ### Calendar -/

/-- The number of days from the start of 1970 to a date.  Years are counted from March, so that
the day that leap years add is the last of its year. -/
def daysOfDate (year : Int) (month day : Nat) : Int :=
  let y := if month ≤ 2 then year - 1 else year
  let era := y / 400
  let yearOfEra := y % 400
  let monthFromMarch : Int := (month + 9) % 12
  let dayOfYear := (153 * monthFromMarch + 2) / 5 + day - 1
  let dayOfEra := yearOfEra * 365 + yearOfEra / 4 - yearOfEra / 100 + dayOfYear
  era * 146097 + dayOfEra - 719468

/-- The date that lies a number of days after the start of 1970. -/
def dateOfDays (days : Int) : Int × Nat × Nat :=
  let z := days + 719468
  let era := z / 146097
  let dayOfEra := z % 146097
  let yearOfEra :=
    (dayOfEra - dayOfEra / 1460 + dayOfEra / 36524 - dayOfEra / 146096) / 365
  let dayOfYear := dayOfEra - (365 * yearOfEra + yearOfEra / 4 - yearOfEra / 100)
  let monthFromMarch := (5 * dayOfYear + 2) / 153
  let day := (dayOfYear - (153 * monthFromMarch + 2) / 5 + 1).toNat
  let month := (if monthFromMarch < 10 then monthFromMarch + 3 else monthFromMarch - 9).toNat
  (yearOfEra + era * 400 + (if month ≤ 2 then 1 else 0), month, day)

/-- Whether a year has a day more. -/
def isLeapYear (year : Int) : Bool :=
  year % 4 = 0 && (year % 100 ≠ 0 || year % 400 = 0)

/-- The number of days of a month. -/
def daysOfMonth (year : Int) (month : Nat) : Nat :=
  if month = 2 then if isLeapYear year then 29 else 28
  else if month = 4 ∨ month = 6 ∨ month = 9 ∨ month = 11 then 30
  else 31

/-- The first year that has dates. -/
def firstYear : Int := -262143

/-- The last year that has dates. -/
def lastYear : Int := 262142

/-- Whether a date exists. -/
def isDate (year : Int) (month day : Nat) : Bool :=
  firstYear ≤ year && year ≤ lastYear && 1 ≤ month && month ≤ 12 && 1 ≤ day &&
    day ≤ daysOfMonth year month

/-! ### Reading -/

/-- Drops leading blanks. -/
def skipBlanks (cs : List Char) : List Char :=
  cs.dropWhile Text.isBlank

/-- One digit or more, at most `width`, as a number. -/
def digits? (width : Nat) (cs : List Char) : Option (Nat × List Char) :=
  let ds := (cs.take width).takeWhile Char.isDigit
  if ds = [] then none
  else some (ds.foldl (fun n c => n * 10 + (c.toNat - '0'.toNat)) 0, cs.drop ds.length)

/-- A number of at most two digits after blanks. -/
def pair? (cs : List Char) : Option (Nat × List Char) :=
  digits? 2 (skipBlanks cs)

/-- A separator after blanks. -/
def separator? (c : Char) (cs : List Char) : Option (List Char) :=
  match skipBlanks cs with
  | d :: r => if d = c then some r else none
  | [] => none

/-- A year: four digits at most, or any number of them after a sign. -/
def year? (cs : List Char) : Option (Int × List Char) :=
  match skipBlanks cs with
  | '-' :: r => (digits? r.length r).map fun (n, r) => (-(n : Int), r)
  | '+' :: r => (digits? r.length r).map fun (n, r) => ((n : Int), r)
  | r => (digits? 4 r).map fun (n, r) => ((n : Int), r)

/-- A date. -/
def date? (cs : List Char) : Option ((Int × Nat × Nat) × List Char) := do
  let (year, cs) ← year? cs
  let cs ← separator? '-' cs
  let (month, cs) ← pair? cs
  let cs ← separator? '-' cs
  let (day, cs) ← pair? cs
  if isDate year month day then some ((year, month, day), cs) else none

/-- The digits after a point as nanoseconds; digits after the ninth do not count. -/
def fraction? (cs : List Char) : Option (Nat × List Char) :=
  match cs with
  | '.' :: r =>
    let ds := r.takeWhile Char.isDigit
    if ds = [] then none
    else
      let nine := (ds ++ List.replicate 9 '0').take 9
      some (nine.foldl (fun n c => n * 10 + (c.toNat - '0'.toNat)) 0, r.dropWhile Char.isDigit)
  | r => some (0, r)

/-- A time of day as seconds and nanoseconds; second 60 is the leap second after second 59. -/
def time? (cs : List Char) : Option ((Nat × Nat) × List Char) := do
  let (hour, cs) ← pair? cs
  let cs ← separator? ':' cs
  let (minute, cs) ← pair? cs
  let cs ← separator? ':' cs
  let (second, cs) ← pair? cs
  let (nanos, cs) ← fraction? cs
  if 23 < hour ∨ 59 < minute ∨ 60 < second then none
  else if second = 60 then some ((hour * 3600 + minute * 60 + 59, 1000000000 + nanos), cs)
  else some ((hour * 3600 + minute * 60 + second, nanos), cs)

/-- Two digits. -/
def twoDigits? : List Char → Option (Nat × List Char)
  | a :: b :: r =>
    if a.isDigit && b.isDigit then
      some ((a.toNat - '0'.toNat) * 10 + (b.toNat - '0'.toNat), r)
    else none
  | _ => none

/-- Hours and minutes of an offset, in seconds. -/
def hoursMinutes? (cs : List Char) : Option (Nat × List Char) := do
  let (hours, cs) ← twoDigits? cs
  let (minutes, cs) ← twoDigits? (cs.dropWhile fun c => c = ':' || Text.isBlank c)
  if 59 < minutes ∨ 24 ≤ hours then none else some (hours * 3600 + minutes * 60, cs)

/-- An offset from universal time, in seconds. -/
def offset? (cs : List Char) : Option (Int × List Char) :=
  match cs with
  | 'Z' :: r | 'z' :: r => some (0, r)
  | '+' :: r => (hoursMinutes? r).map fun (n, r) => ((n : Int), r)
  | '-' :: r | '−' :: r => (hoursMinutes? r).map fun (n, r) => (-(n : Int), r)
  | a :: b :: c :: r =>
    if [a, b, c].map Char.toUpper = ['U', 'T', 'C'] then some (0, r) else none
  | _ => none

/-- The seconds of the first instant that has a date. -/
def firstSecond : Int := daysOfDate firstYear 1 1 * 86400

/-- The first seconds that have no date any more. -/
def endSecond : Int := daysOfDate (lastYear + 1) 1 1 * 86400

/-- Reads an instant. -/
def read? (text : String) : Option Instant := do
  let ((year, month, day), cs) ← date? text.toList
  let cs ← match cs with
    | 'T' :: r | 't' :: r | ' ' :: r => some r
    | _ => none
  let ((seconds, nanos), cs) ← time? cs
  let (offset, cs) ← offset? (skipBlanks cs)
  let total := daysOfDate year month day * 86400 + seconds - offset
  if skipBlanks cs = [] ∧ firstSecond ≤ total ∧ total < endSecond then some ⟨total, nanos⟩
  else none

/-! ### Writing -/

/-- A number with leading zeros up to `width` digits. -/
def padded (width n : Nat) : String :=
  let ds := Nat.toDigits 10 n
  String.ofList (List.replicate (width - ds.length) '0' ++ ds)

/-- A year: four digits, with a sign outside the years 0 to 9999. -/
def renderYear (year : Int) : String :=
  if 0 ≤ year ∧ year ≤ 9999 then padded 4 year.toNat
  else (if year < 0 then "-" else "+") ++ padded 4 year.natAbs

/-- The instant in universal time, in whole seconds. -/
def render (t : Instant) : String :=
  let (year, month, day) := dateOfDays (t.seconds / 86400)
  let rest := (t.seconds % 86400).toNat
  let second := rest % 60 + (if 1000000000 ≤ t.nanos then 1 else 0)
  renderYear year ++ "-" ++ padded 2 month ++ "-" ++ padded 2 day ++ "T" ++
    padded 2 (rest / 3600) ++ ":" ++ padded 2 (rest / 60 % 60) ++ ":" ++ padded 2 second ++ "Z"

end Instant

end ClusterHerald
