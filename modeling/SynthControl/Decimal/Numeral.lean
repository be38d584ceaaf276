import SynthControl.Decimal.Binary64

/-!
# Reading numerals

* `readInt?`, `readWord?` — a decimal integer with an optional sign, and one that fits 32 bits;
* `Numeral`, `Numeral.ofChars?` — the parts of a decimal numeral, at least one digit in all;
* `Numeral.toFloat` — the nearest float;
* `readFloat?` — a float: a numeral, or the name of an infinity or of "not a number" in any case, with
  an optional sign.

Main statement: `takeDigits_append` (taking digits loses nothing).
-/

namespace SynthControl.Decimal

/-- The value of a string of decimal digits. -/
def ofDigits (ds : List Char) : Nat := ds.foldl (fun n c => 10 * n + (c.toNat - '0'.toNat)) 0

/-- The leading decimal digits, and the rest. -/
def takeDigits (s : List Char) : List Char × List Char :=
  (s.takeWhile Char.isDigit, s.dropWhile Char.isDigit)

/-- Taking digits loses nothing. -/
theorem takeDigits_append (s : List Char) : (takeDigits s).1 ++ (takeDigits s).2 = s := by
  simp [takeDigits, List.takeWhile_append_dropWhile]

/-- A sign at the beginning of a text: whether it is a minus sign, and what follows it. -/
def takeSign : List Char → Bool × List Char
  | '-' :: r => (true, r)
  | '+' :: r => (false, r)
  | s => (false, s)

/-- A decimal integer with an optional sign. -/
def readInt? (s : List Char) : Option Int :=
  let (negative, ds) := takeSign s
  if ds.isEmpty || !ds.all Char.isDigit then none
  else some (if negative then -(ofDigits ds : Int) else ofDigits ds)

/-- The integers of 32 bits. -/
def isWord (n : Int) : Bool := -0x80000000 ≤ n && n < 0x80000000

/-- A decimal integer of 32 bits with an optional sign. -/
def readWord? (s : List Char) : Option Int := (readInt? s).filter isWord

/-! ### Floats -/

/-- A decimal numeral without its sign: digits before and after the point, and the power of ten. -/
structure Numeral where
  /-- Digits before the point. -/
  whole : List Char
  fraction : List Char
  exponent : Int

/-- A written power of ten behind the digits; a text without one has the power zero. -/
def readExponent? : List Char → Option Int
  | [] => some 0
  | c :: r =>
    if c = 'e' ∨ c = 'E' then readInt? r else none

/-- The parts of a numeral: digits, a point and digits, and a power of ten, where a part may be missing
as long as there is a digit before the power. -/
def Numeral.ofChars? (s : List Char) : Option Numeral :=
  let (whole, rest) := takeDigits s
  let (fraction, rest) :=
    match rest with
    | '.' :: r => takeDigits r
    | r => ([], r)
  if whole.isEmpty && fraction.isEmpty then none
  else (readExponent? rest).map fun e => ⟨whole, fraction, e⟩

/-- The float nearest to `digits * 10 ^ power`.  Far outside the range of the floats the answer is an
infinity or zero without any arithmetic on the power. -/
def ofScientific (negative : Bool) (digits : Nat) (power : Int) : Float :=
  let top := (Nat.toDigits 10 digits).length + power
  if digits = 0 ∨ top < -400 then assemble negative 0 minExponent
  else if 400 < top then assemble negative (Nat.pow 2 52) 972
  else nearest negative (digits * Nat.pow 10 power.toNat) (Nat.pow 10 (-power).toNat)

/-- The float nearest to a numeral. -/
def Numeral.toFloat (negative : Bool) (n : Numeral) : Float :=
  ofScientific negative (ofDigits (n.whole ++ n.fraction)) (n.exponent - n.fraction.length)

/-- A text in lower case, as far as the Latin letters go. -/
def lower (s : List Char) : List Char := s.map Char.toLower

/-- A float: a numeral, `inf`, `infinity` or `nan` in any case, with an optional sign. -/
def readFloat? (s : List Char) : Option Float :=
  let (negative, r) := takeSign s
  if lower r = "inf".toList ∨ lower r = "infinity".toList then
    some (assemble negative (Nat.pow 2 52) 972)
  else if lower r = "nan".toList then some (.ofBits 0x7FF8000000000000)
  else (Numeral.ofChars? r).map (Numeral.toFloat negative)

end SynthControl.Decimal
