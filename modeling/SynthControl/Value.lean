import SynthControl.Decimal.Shortest
import SynthControl.Text.Quoted

/-!
# Values

The arguments and results of engine calls.

* `Value` — unit, integers, floats, texts, byte strings and lists;
* `asInt?`, `asFloat?`, … — the views; an integer also counts as a float;
* `asStatus` — a lifecycle status, minus one for everything that is none;
* `same` — equality, under which floats compare as numbers;
* `text` — the text of a value.
-/

namespace SynthControl

/-- An argument or a result of an engine call. -/
inductive Value where
  | unit
  | int (n : Int)
  | float (x : Float)
  | str (s : String)
  /-- A byte string. -/
  | bytes (b : ByteArray)
  | list (vs : List Value)

instance : Inhabited Value := ⟨.unit⟩

namespace Value

/-- The integer that a value is. -/
def asInt? : Value → Option Int
  | int n => some n
  | _ => none

/-- The float that a value is; integers widen. -/
def asFloat? : Value → Option Float
  | float x => some x
  | int n => some (.ofInt n)
  | _ => none

/-- The text that a value is. -/
def asText? : Value → Option String
  | str s => some s
  | _ => none

/-- The byte string that a value is. -/
def asBytes? : Value → Option ByteArray
  | bytes b => some b
  | _ => none

/-- The list that a value is. -/
def asList? : Value → Option (List Value)
  | list vs => some vs
  | _ => none

/-- The status of a lifecycle call: an integer of 32 bits, and minus one for anything else. -/
def asStatus : Value → Int
  | int n => if -0x80000000 ≤ n ∧ n < 0x80000000 then n else -1
  | _ => -1

/-- A truth value as an integer. -/
def ofBool (b : Bool) : Value := int (if b then 1 else 0)

mutual

/-- Equality of values.  Floats compare as numbers, and values of different kinds differ. -/
def same : Value → Value → Bool
  | unit, unit => true
  | int m, int n => m == n
  | float x, float y => x == y
  | str s, str t => s == t
  | bytes b, bytes c => b.data == c.data
  | list us, list vs => sameAll us vs
  | _, _ => false

/-- Equality of lists of values, element by element. -/
def sameAll : List Value → List Value → Bool
  | [], [] => true
  | u :: us, v :: vs => same u v && sameAll us vs
  | _, _ => false

end

mutual

/-- The text of a value. -/
def text : Value → String
  | unit => "()"
  | int n => toString n
  | float x => Decimal.text x
  | str s => Text.quoted s
  | bytes b => "<" ++ toString b.size ++ " bytes>"
  | list [] => "[]"
  | list (v :: vs) => "[" ++ text v ++ textRest vs

/-- The text of the rest of a list, behind an element. -/
def textRest : List Value → String
  | [] => "]"
  | v :: vs => ", " ++ text v ++ textRest vs

end

/-! ### Views of the constructors -/

/-- Only an integer has the integer view. -/
theorem asInt?_eq_some_iff {v : Value} {n : Int} : v.asInt? = some n ↔ v = int n := by
  cases v <;> simp [asInt?]

/-- Only a text has the text view. -/
theorem asText?_eq_some_iff {v : Value} {s : String} : v.asText? = some s ↔ v = str s := by
  cases v <;> simp [asText?]

end Value
end SynthControl
