/-!
# Binary floating point in natural numbers

A float of 64 bits is not a number, an infinity, or a sign with a natural mantissa times a power of
two.  All work on digits is done on that view, in exact arithmetic.

* `Binary64` — the view, and `Binary64.ofFloat`, which reads it off the bits;
* `roundDiv` — a quotient rounded to the nearest natural number, an exact half to the even one;
* `Binary64.assemble`, `nearest` — the float for a mantissa and an exponent, and the float nearest to
  a fraction.

Main statements: `roundDiv_le` and `le_roundDiv` (the rounded quotient is within half a unit).
-/

namespace SynthControl.Decimal

/-- What the bits of a float say. -/
inductive Binary64 where
  /-- Not a number. -/
  | nan
  | infinite (negative : Bool)
  /-- The number `mantissa * 2 ^ exponent` with a sign. -/
  | finite (negative : Bool) (mantissa : Nat) (exponent : Int)
  deriving DecidableEq, Repr

/-- The exponent of the smallest positive float. -/
def minExponent : Int := -1074

/-- The view of a word: one sign bit, eleven exponent bits, fifty-two fraction bits. -/
def Binary64.ofWord (word : Nat) : Binary64 :=
  let negative : Bool := word / Nat.pow 2 63 % 2 = 1
  let exponent : Nat := word / Nat.pow 2 52 % Nat.pow 2 11
  let fraction : Nat := word % Nat.pow 2 52
  if exponent = 2047 then
    if fraction = 0 then .infinite negative else .nan
  else if exponent = 0 then .finite negative fraction minExponent
  else .finite negative (Nat.pow 2 52 + fraction) (exponent - 1075)

/-- The view of a float. -/
def Binary64.ofFloat (x : Float) : Binary64 := .ofWord x.toBits.toNat

/-! ### Rounding -/

/-- The quotient rounded to the nearest natural number; an exact half goes to the even neighbour. -/
def roundDiv (num den : Nat) : Nat :=
  let q := num / den
  let r := num % den
  if den < 2 * r ∨ (2 * r = den ∧ q % 2 = 1) then q + 1 else q

/-- The rounded quotient is at most half a unit above the quotient. -/
theorem roundDiv_le (num den : Nat) : 2 * (roundDiv num den * den) ≤ 2 * num + den := by
  have h := Nat.div_add_mod num den
  have h' : den * (num / den) = num / den * den := Nat.mul_comm _ _
  simp only [roundDiv]
  split
  · rw [Nat.add_mul]
    omega
  · omega

/-- The rounded quotient is at most half a unit below the quotient. -/
theorem le_roundDiv (num den : Nat) (hd : 0 < den) :
    2 * num ≤ 2 * (roundDiv num den * den) + den := by
  have h := Nat.div_add_mod num den
  have hr := Nat.mod_lt num hd
  have h' : den * (num / den) = num / den * den := Nat.mul_comm _ _
  simp only [roundDiv]
  split
  · rw [Nat.add_mul]
    omega
  · omega

/-! ### Assembling a float -/

/-- The bit pattern of an infinity. -/
def infinityWord : Nat := 2047 * Nat.pow 2 52

/-- The sign bit. -/
def signWord (negative : Bool) : Nat := if negative then Nat.pow 2 63 else 0

/-- The float `mantissa * 2 ^ exponent`, for a mantissa of at most fifty-three bits that has fewer
only at the smallest exponent.  An exponent that is too large gives an infinity. -/
def assemble (negative : Bool) (mantissa : Nat) (exponent : Int) : Float :=
  let word :=
    if 971 < exponent then infinityWord
    else (exponent - minExponent).toNat * Nat.pow 2 52 + mantissa
  .ofBits (signWord negative + word).toUInt64

/-- Fraction `num / den` in units of `2 ^ exponent`, rounded. -/
def roundAt (num den : Nat) (exponent : Int) : Nat :=
  if 0 ≤ exponent then roundDiv num (den * Nat.pow 2 exponent.toNat)
  else roundDiv (num * Nat.pow 2 (-exponent).toNat) den

/-- The exponent at which the fraction has a mantissa of fifty-three bits, or the smallest exponent. -/
def exponentFor (num den : Nat) : Int :=
  let guess : Int := (num.log2 : Int) - den.log2 - 53
  let large : Bool :=
    if 0 ≤ guess then den * Nat.pow 2 (guess.toNat + 53) ≤ num
    else den * Nat.pow 2 53 ≤ num * Nat.pow 2 (-guess).toNat
  max minExponent (if large then guess + 1 else guess)

/-- The float nearest to the fraction `num / den`, with a sign; of two nearest the even one. -/
def nearest (negative : Bool) (num den : Nat) : Float :=
  if num = 0 then assemble negative 0 minExponent
  else
    let e := exponentFor num den
    let m := roundAt num den e
    if m = Nat.pow 2 53 then assemble negative (Nat.pow 2 52) (e + 1) else assemble negative m e

end SynthControl.Decimal
