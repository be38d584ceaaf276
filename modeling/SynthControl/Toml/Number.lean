import SynthControl.Decimal.Numeral
import SynthControl.Toml.Node
import SynthControl.Toml.Quoted

/-!
# Numbers of TOML

Integers are decimal with an optional sign and no leading zero, or hexadecimal, octal or binary without a
sign; floats have a fraction or an exponent, or are an infinity or "not a number".  A single underscore may
stand between two digits.

* `grouped?` — digits with underscores between them;
* `whole?` — the integral part of a decimal number;
* `based?` — an integer in another base;
* `exponent?` — a written power of ten;
* `number?` — any number.

An integer has to fit 64 bits.  A float that is written with digits must not be too large, but it may be too
small.

Main statements: `length_takeGrouped`, `length_grouped?` (reading digits makes a text shorter).
-/

namespace SynthControl.Toml

/-- The leading digits, between which single underscores may stand, and the rest. -/
def takeGrouped (isDigit : Char → Bool) : List Char → List Char × List Char
  | [] => ([], [])
  | '_' :: c :: r =>
    if isDigit c then
      let (ds, rest) := takeGrouped isDigit r
      (c :: ds, rest)
    else ([], '_' :: c :: r)
  | c :: r =>
    if isDigit c then
      let (ds, rest) := takeGrouped isDigit r
      (c :: ds, rest)
    else ([], c :: r)

/-- Digits, of which there is at least one. -/
def grouped? (isDigit : Char → Bool) : Reader (List Char)
  | [] => none
  | c :: r =>
    if isDigit c then
      let (ds, rest) := takeGrouped isDigit r
      some (c :: ds, rest)
    else none

theorem length_takeGrouped (isDigit : Char → Bool) (s : List Char) :
    (takeGrouped isDigit s).2.length ≤ s.length := by
  fun_induction takeGrouped isDigit s <;> simp_all <;> omega

theorem length_grouped? {isDigit : Char → Bool} {s ds r : List Char}
    (h : grouped? isDigit s = some (ds, r)) : r.length < s.length := by
  cases s with
  | nil => simp [grouped?] at h
  | cons c s =>
    simp only [grouped?] at h
    split at h
    · cases h
      exact Nat.lt_succ_of_le (length_takeGrouped isDigit s)
    · simp at h

/-- The digits of an integral part: a zero, or digits that begin with none. -/
def whole? : Reader (List Char)
  | '0' :: r => some (['0'], r)
  | s => grouped? Char.isDigit s

/-- The integers of 64 bits. -/
def isLong (n : Int) : Bool := -0x8000000000000000 ≤ n && n < 0x8000000000000000

/-- An integer of 64 bits as a node. -/
def integer? (n : Int) : Option Node := if isLong n then some (.integer n) else none

/-- The bases other than ten, by the letter that stands behind the leading zero. -/
def baseOf? (c : Char) : Option Nat :=
  match c with
  | 'x' => some 16
  | 'o' => some 8
  | 'b' => some 2
  | _ => none

/-- A digit of a base. -/
def isDigitOf (base : Nat) (c : Char) : Bool :=
  match hexValue? c with
  | some d => d < base
  | none => false

/-- An integer in a base, behind the letter of the base. -/
def based? (base : Nat) (s : List Char) : Option (Node × List Char) := do
  let (ds, r) ← grouped? (isDigitOf base) s
  let n ← ofHexDigits? base ds
  let v ← integer? n
  return (v, r)

/-- A power of ten behind its letter. -/
def exponent? (s : List Char) : Option (Int × List Char) := do
  let (negative, s) := Decimal.takeSign s
  let (ds, r) ← grouped? Char.isDigit s
  let n : Int := Decimal.ofDigits ds
  return (if negative then -n else n, r)

/-- A fraction behind its point, if there is one; a point without digits is refused. -/
def fraction? : List Char → Option (Option (List Char) × List Char)
  | '.' :: r => (grouped? Char.isDigit r).map fun p => (some p.1, p.2)
  | s => some (none, s)

/-- A power of ten behind its letter, if there is one. -/
def power? : List Char → Option (Option Int × List Char)
  | 'e' :: r | 'E' :: r => (exponent? r).map fun p => (some p.1, p.2)
  | s => some (none, s)

/-- A float that is written with digits; it must not be too large. -/
def finite? (negative : Bool) (n : Decimal.Numeral) : Option Node :=
  let x := n.toFloat negative
  if x.toBits.toNat = Decimal.infinityWord then none else some (.float x)

/-- A decimal number behind its sign. -/
def decimal? (negative : Bool) (s : List Char) : Option (Node × List Char) := do
  let (whole, r) ← whole? s
  let (fraction, r) ← fraction? r
  let (power, r) ← power? r
  if fraction.isNone && power.isNone then
    let n : Int := Decimal.ofDigits whole
    let v ← integer? (if negative then -n else n)
    return (v, r)
  else
    let v ← finite? negative ⟨whole, fraction.getD [], power.getD 0⟩
    return (v, r)

/-- The name of a special float. -/
def special? (negative : Bool) : List Char → Option (Node × List Char)
  | 'i' :: 'n' :: 'f' :: r => some (.float (Decimal.assemble negative (Nat.pow 2 52) 972), r)
  | 'n' :: 'a' :: 'n' :: r => some (.float (.ofBits 0x7FF8000000000000), r)
  | _ => none

/-- A number behind its sign. -/
def signed? (negative : Bool) (s : List Char) : Option (Node × List Char) :=
  (special? negative s).or (decimal? negative s)

/-- Any number. -/
def number? : Reader Node
  | '0' :: c :: r =>
    match baseOf? c with
    | some base => based? base r
    | none => decimal? false ('0' :: c :: r)
  | s =>
    let (negative, r) := Decimal.takeSign s
    signed? negative r

end SynthControl.Toml
