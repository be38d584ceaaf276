import SynthControl.Decimal.Binary64

/-!
# Shortest digits of a float

The fewest decimal digits that read back as a given float, and of those the nearest to it.

A positive float `m * 2 ^ q` owns the interval of the numbers that round to it; the ends belong to it
exactly when `m` is even.  The numbers `c * 10 ^ p` with at most `n` digits form a grid.  For
`n = 1, 2, …` the two neighbours of the float on that grid are tried; the first grid with a hit wins,
of two hits the nearer one, and on an exact tie the upper one.

* `Interval` — the interval over a common denominator, and `Interval.ofFinite`;
* `Interval.contains` — membership of a grid point;
* `Interval.magnitude` — the number of digits before the point;
* `Interval.onGrid?`, `Interval.shortest` — the neighbours on one grid, and the search;
* `positional`, `text` — the digits with a point, and the text of any float.

Main statement: `onGrid?_contains` (a hit reads back).
-/

namespace SynthControl.Decimal

/-- A float `value / den` with the ends of the interval that rounds to it. -/
structure Interval where
  low : Nat
  value : Nat
  /-- Numerator of the upper end. -/
  high : Nat
  den : Nat
  /-- The ends round to the float. -/
  closed : Bool

/-- The interval of the float `m * 2 ^ q`.  Below a power of two the neighbours are twice as close. -/
def Interval.ofFinite (m : Nat) (q : Int) : Interval :=
  let up := Nat.pow 2 (q - 2).toNat
  let below := if m = Nat.pow 2 52 ∧ minExponent < q then 1 else 2
  { low := (4 * m - below) * up, value := 4 * m * up, high := (4 * m + 2) * up
    den := Nat.pow 2 (2 - q).toNat, closed := m % 2 = 0 }

/-- The point `c * 10 ^ p` rounds to the float. -/
def Interval.contains (i : Interval) (c : Nat) (p : Int) : Bool :=
  let point := c * Nat.pow 10 p.toNat * i.den
  let scale := Nat.pow 10 (-p).toNat
  if i.closed then i.low * scale ≤ point && point ≤ i.high * scale
  else i.low * scale < point && point < i.high * scale

/-- The number of decimal digits of a natural number; zero has none. -/
def digitCount (n : Nat) : Nat := if n = 0 then 0 else (Nat.toDigits 10 n).length

/-- The `k` with `10 ^ (k - 1) ≤ value < 10 ^ k`. -/
def Interval.magnitude (i : Interval) : Int :=
  if i.den ≤ i.value then digitCount (i.value / i.den)
  else 1 - (digitCount ((i.den - 1) / i.value) : Int)

/-- The neighbour of the float among the multiples of `10 ^ p`, if one reads back. -/
def Interval.onGrid? (i : Interval) (p : Int) : Option Nat :=
  let num := i.value * Nat.pow 10 (-p).toNat
  let den := i.den * Nat.pow 10 p.toNat
  let c := num / den
  match i.contains c p, i.contains (c + 1) p with
  | true, true => some (if 2 * (num % den) < den then c else c + 1)
  | true, false => some c
  | false, true => some (c + 1)
  | false, false => none

/-- A hit on a grid reads back. -/
theorem Interval.onGrid?_contains {i : Interval} {p : Int} {c : Nat} (h : i.onGrid? p = some c) :
    i.contains c p = true := by
  simp only [onGrid?] at h
  split at h
  · split at h <;> simp_all
  all_goals simp_all

/-- Try the grids with `n`, `n + 1`, … digits; `tries` bounds their number. -/
def Interval.search (i : Interval) (k : Int) : Nat → Nat → Nat × Int
  | 0, n => (i.value * Nat.pow 10 (n - k).toNat / (i.den * Nat.pow 10 (k - n).toNat), k - n)
  | tries + 1, n =>
    match i.onGrid? (k - n) with
    | some c => (c, k - n)
    | none => i.search k tries (n + 1)

/-- The shortest coefficient and power of ten; seventeen digits always suffice. -/
def Interval.shortest (i : Interval) : Nat × Int := i.search i.magnitude 17 1

/-! ### Text -/

/-- The number `c * 10 ^ p` without an exponent: digits, and a point only before a digit. -/
def positional (c : Nat) (p : Int) : List Char :=
  let digits := Nat.toDigits 10 c
  if 0 ≤ p then digits ++ List.replicate p.toNat '0'
  else
    let places := (-p).toNat
    let padded := List.replicate (places + 1 - digits.length) '0' ++ digits
    let whole := padded.length - places
    padded.take whole ++ '.' :: padded.drop whole

/-- A coefficient without trailing zeros in its fraction. -/
def dropZeros : Nat → Nat → Int → Nat × Int
  | 0, c, p => (c, p)
  | n + 1, c, p => if p < 0 ∧ c % 10 = 0 then dropZeros n (c / 10) (p + 1) else (c, p)

/-- A minus sign, if there is to be one. -/
def sign (negative : Bool) : List Char := if negative then ['-'] else []

/-- The text of a float: the shortest digits that read back, never with an exponent. -/
def text (x : Float) : String :=
  match Binary64.ofFloat x with
  | .nan => "NaN"
  | .infinite negative => String.ofList (sign negative ++ "inf".toList)
  | .finite negative m q =>
    if m = 0 then String.ofList (sign negative ++ ['0'])
    else
      let (c, p) := (Interval.ofFinite m q).shortest
      let (c, p) := dropZeros 20 c p
      String.ofList (sign negative ++ positional c p)

end SynthControl.Decimal
