/-!
# Binary floating-point numbers of 64 bits

The numbers of JSON that are not integers, in exact arithmetic.  A magnitude is a pair of a
mantissa below `2^53` and an exponent; `nearest?` rounds a quotient to a magnitude, ties going to
the even mantissa, and fails when the quotient is too large.

`ofDecimal?` reads a decimal, `shortest` finds the fewest digits that read back, `render` writes
them: positionally while the point stands close to the digits, else with an exponent that carries
its sign.
-/

namespace ClusterHerald

/-- `n / d` to the nearest natural number; a half goes to the even neighbour. -/
def roundHalfEven (n d : Nat) : Nat :=
  let q := n / d
  let r := n % d
  if 2 * r < d then q
  else if d < 2 * r then q + 1
  else if q % 2 = 0 then q else q + 1

/-- A finite number `± mantissa · 2 ^ exponent`.  Mantissas are below `2 ^ 53`, exponents between
`-1074` and `971`, and a mantissa below `2 ^ 52` has exponent `-1074`. -/
structure Binary64 where
  negative : Bool
  mantissa : Nat
  exponent : Int
deriving DecidableEq, Repr, Inhabited

namespace Binary64

/-- The least exponent. -/
def minExponent : Int := -1074

/-- The greatest exponent. -/
def maxExponent : Int := 971

/-- The magnitude nearest to `n / d`, unless it is too large. -/
def nearest? (n d : Nat) : Option (Nat × Int) :=
  if n = 0 then some (0, minExponent) else
    let width : Int := (Nat.log2 n : Int) - Nat.log2 d
    let top : Int :=
      if d * Nat.pow 2 width.toNat ≤ n * Nat.pow 2 (-width).toNat then width else width - 1
    let e := max (top - 52) minExponent
    let q := roundHalfEven (n * Nat.pow 2 (-e).toNat) (d * Nat.pow 2 e.toNat)
    -- rounding up may take one bit more
    let (m, e) := if q = Nat.pow 2 53 then (Nat.pow 2 52, e + 1) else (q, e)
    if maxExponent < e then none else some (m, e)

/-- A magnitude as a quotient. -/
def quotient (m : Nat) (e : Int) : Nat × Nat :=
  (m * Nat.pow 2 e.toNat, Nat.pow 2 (-e).toNat)

/-- The product of two magnitudes, rounded. -/
def mul? (a b : Nat × Int) : Option (Nat × Int) :=
  let (n, d) := quotient a.1 a.2
  let (n', d') := quotient b.1 b.2
  nearest? (n * n') (d * d')

/-- The quotient of two magnitudes, rounded. -/
def div? (a b : Nat × Int) : Option (Nat × Int) :=
  let (n, d) := quotient a.1 a.2
  let (n', d') := quotient b.1 b.2
  nearest? (n * d') (d * n')

/-- The greatest power of ten that is finite. -/
def maxPower : Nat := 308

/-- The magnitude nearest to `10 ^ k`. -/
def power? (k : Nat) : Option (Nat × Int) :=
  nearest? (Nat.pow 10 k) 1

/-- Divides a magnitude `steps` times by the greatest finite power of ten; zero stays zero. -/
def divGreatest : Nat → Nat × Int → Option (Nat × Int)
  | 0, a => some a
  | steps + 1, a =>
    if a.1 = 0 then some a
    else ((power? maxPower).bind (div? a)).bind (divGreatest steps)

/-- Divides a magnitude by `10 ^ k`, in steps of finite powers. -/
def divPower (a : Nat × Int) (k : Nat) : Option (Nat × Int) :=
  let steps := (k - 1) / maxPower
  (divGreatest steps a).bind fun b =>
    if b.1 = 0 then some b else (power? (k - maxPower * steps)).bind (div? b)

/-- Reads `significand · 10 ^ exponent`: the rounded significand times or over the rounded power
of ten.  Fails when the number is too large. -/
def ofDecimal? (negative : Bool) (significand : Nat) (exponent : Int) : Option Binary64 := do
  let a ← nearest? significand 1
  let (m, e) ←
    if exponent < 0 then divPower a (-exponent).toNat
    else if exponent.toNat ≤ maxPower then (power? exponent.toNat).bind (mul? a)
    else if a.1 = 0 then some a
    else none
  return ⟨negative, m, e⟩

/-- Whether two numbers are equal; the sign of zero does not count. -/
def same (a b : Binary64) : Bool :=
  if a.mantissa = 0 then b.mantissa = 0 else a = b

/-! ### Fewest digits -/

/-- The exponent of the leading decimal digit of `n / d`, for positive `n` and `d`. -/
def leadingPlace (n d : Nat) : Int :=
  if d ≤ n then ((Nat.toDigits 10 (n / d)).length : Int) - 1
  else
    let k := (Nat.toDigits 10 (d / n)).length
    if n * Nat.pow 10 (k - 1) = d then -((k : Int) - 1) else -(k : Int)

/-- Whether `c · 10 ^ k` lies between `lo · 2 ^ e` and `hi · 2 ^ e`, ends included if `closed`. -/
def within (c : Nat) (k : Int) (lo hi : Nat) (e : Int) (closed : Bool) : Bool :=
  let x := c * Nat.pow 10 k.toNat * Nat.pow 2 (-e).toNat
  let a := lo * Nat.pow 2 e.toNat * Nat.pow 10 (-k).toNat
  let b := hi * Nat.pow 2 e.toNat * Nat.pow 10 (-k).toNat
  if closed then a ≤ x && x ≤ b else a < x && x < b

/-- Of the neighbours `c` and `c + 1` of the number on the grid of `10 ^ k`, the one that reads
back; of two, the nearer, and the even one of two as near. -/
def onGrid (m : Nat) (e k : Int) : Option Nat :=
  let (n, d) := quotient m e
  let num := n * Nat.pow 10 (-k).toNat
  let den := d * Nat.pow 10 k.toNat
  let c := num / den
  -- in quarters of the last bit: the gap below a power of two is half as wide
  let lo := if m = Nat.pow 2 52 ∧ minExponent < e then 4 * m - 1 else 4 * m - 2
  let ok (x : Nat) := within x k lo (4 * m + 2) (e - 2) (m % 2 = 0)
  match decide (c ≠ 0) && ok c, ok (c + 1) with
  | true, true => some (roundHalfEven num den)
  | true, false => some c
  | false, true => some (c + 1)
  | false, false => none

/-- The first grid of at least `digits` places with a point that reads back. -/
def searchGrids (m : Nat) (e place : Int) : Nat → Nat → Nat × Int
  | 0, _ => (0, 0)
  | fuel + 1, digits =>
    let k := place - digits + 1
    match onGrid m e k with
    | some c => (c, k)
    | none => searchGrids m e place fuel (digits + 1)

/-- The decimal `c · 10 ^ k` with the fewest digits that reads back as `m · 2 ^ e`.  Seventeen
digits always suffice. -/
def shortest (m : Nat) (e : Int) : Nat × Int :=
  if m = 0 then (0, 0)
  else
    let (n, d) := quotient m e
    searchGrids m e (leadingPlace n d) 17 1

/-- Digits without trailing zeros, and how many zeros were dropped. -/
def dropZeros (digits : List Char) : List Char × Nat :=
  let zeros := (digits.reverse.takeWhile (· = '0')).length
  (digits.take (digits.length - zeros), zeros)

/-- The text of a number: positional while the point stands at most sixteen places after or five
before the first digit, else one digit before the point and a signed exponent. -/
def render (x : Binary64) : String :=
  let sign := if x.negative then "-" else ""
  let (c, k) := shortest x.mantissa x.exponent
  if c = 0 then sign ++ "0.0" else
    let (ds, zeros) := dropZeros (Nat.toDigits 10 c)
    let k := k + zeros
    let point : Int := ds.length + k
    let body : List Char :=
      if 0 ≤ k ∧ point ≤ 16 then ds ++ List.replicate k.toNat '0' ++ ['.', '0']
      else if 0 < point ∧ point ≤ 16 then ds.take point.toNat ++ '.' :: ds.drop point.toNat
      else if -5 < point ∧ point ≤ 0 then '0' :: '.' :: List.replicate (-point).toNat '0' ++ ds
      else
        let tail := match ds with
          | d :: d' :: rest => d :: '.' :: d' :: rest
          | ds => ds
        let e := point - 1
        tail ++ 'e' :: (if e < 0 then '-' else '+') :: Nat.toDigits 10 e.natAbs
    sign ++ String.ofList body

end Binary64

end ClusterHerald
