import SynthControl.Decimal.Shortest
import SynthControl.Toml.Number

/-!
# Writing TOML

Only what a table of settings needs is written: sections with a header, in which keys have numbers and truth
values.

* `writeFloat`, `Node.write?` — a value;
* `writeLine?`, `writeSection?` — a key with its value, and a section;
* `write?` — sections with an empty line between them.

An integer that does not fit 64 bits cannot be written.

Main statement: `write?_integer_eq_none_iff`.
-/

namespace SynthControl.Toml

/-- A float: the fewest digits that read back, always with a point; "not a number" has no sign. -/
def writeFloat (x : Float) : List Char :=
  match Decimal.Binary64.ofFloat x with
  | .nan => "nan".toList
  | .infinite negative => Decimal.sign negative ++ "inf".toList
  | .finite .. =>
    let s := (Decimal.text x).toList
    if s.contains '.' then s else s ++ ".0".toList

/-- A number or a truth value. -/
def Node.write? : Node → Option (List Char)
  | integer n => if isLong n then some (toString n).toList else none
  | float x => some (writeFloat x)
  | boolean b => some (if b then "true".toList else "false".toList)
  | _ => none

/-- Exactly the integers that do not fit 64 bits cannot be written. -/
theorem Node.write?_integer_eq_none_iff (n : Int) : (integer n).write? = none ↔ isLong n = false := by
  simp only [write?]
  split <;> simp_all

/-- A key with its value. -/
def writeLine? (e : String × Node) : Option (List Char) :=
  e.2.write?.map fun v => e.1.toList ++ " = ".toList ++ v ++ ['\n']

/-- A section: its header, and a line for each key. -/
def writeSection? (s : String × Entries) : Option (List Char) :=
  (s.2.mapM writeLine?).map fun lines => '[' :: s.1.toList ++ [']', '\n'] ++ lines.flatten

/-- Sections with an empty line between them. -/
def write? (sections : List (String × Entries)) : Option (List Char) :=
  (sections.mapM writeSection?).map fun parts => List.intercalate ['\n'] parts

end SynthControl.Toml
