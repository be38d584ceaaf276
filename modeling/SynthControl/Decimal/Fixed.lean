import SynthControl.Decimal.Shortest

/-!
# Floats with a fixed number of places

* `fixed` — the text of a float with a given number of digits after the point.  The exact value is
  rounded; an exact half goes to the even digit.  The sign of a negative zero is kept.
-/

namespace SynthControl.Decimal

/-- The value `m * 2 ^ q` in units of `10 ^ -places`, rounded. -/
def inPlaces (m : Nat) (q : Int) (places : Nat) : Nat :=
  roundDiv (m * Nat.pow 2 q.toNat * Nat.pow 10 places) (Nat.pow 2 (-q).toNat)

/-- The text of a float with `places` digits after the point, of which there is at least one. -/
def fixed (places : Nat) (x : Float) : String :=
  match Binary64.ofFloat x with
  | .nan => "NaN"
  | .infinite negative => String.ofList (sign negative ++ "inf".toList)
  | .finite negative m q =>
    String.ofList (sign negative ++ positional (inPlaces m q places) (-(places : Int)))

end SynthControl.Decimal
