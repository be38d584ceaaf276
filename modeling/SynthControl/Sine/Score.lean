import SynthControl.Decimal.Numeral
import SynthControl.Text.Scan

/-!
# Scores

A score is read for its length only.  A line whose first word is `i` is a note when at least three of
its other words are numbers: the instrument, the start and the duration; a line whose first word is
`e` ends the score.

* `Statement`, `Statement.ofLine?` — what a line says;
* `later` — the larger of two times;
* `Length` — the end of the score so far and the number of notes; `Length.after`, `Length.read`.

Main statements: `Length.read_cons`, `Length.read_append` (lines are read one after another).
-/

namespace SynthControl.Sine

/-- What a line of a score says. -/
inductive Statement where
  /-- A note, with the time of its end. -/
  | note (stop : Float)
  | finish

/-- What a line says, if anything. -/
def Statement.ofLine? (line : List Char) : Option Statement :=
  match Text.words (Text.trim line) with
  | ['i'] :: rest =>
    match rest.filterMap Decimal.readFloat? with
    | _ :: start :: duration :: _ => some (.note (start + duration))
    | _ => none
  | ['e'] :: _ => some .finish
  | _ => none

/-- The larger of two times; what is not a number does not count. -/
def later (x y : Float) : Float :=
  if x.isNaN then y else if y.isNaN then x else if x < y then y else x

/-- The end of a score, if there is one yet, and the number of its notes. -/
structure Length where
  /-- The end in seconds. -/
  stop : Option Float
  notes : Nat := 0

/-- The length after one more statement: a note extends the score, an end statement only closes a score
that has no end yet. -/
def Length.after (l : Length) : Statement → Length
  | .note stop => ⟨some ((l.stop.map fun d => later d stop).getD stop), l.notes + 1⟩
  | .finish => { l with stop := some (l.stop.getD 0) }

/-- The length after the statements of some lines. -/
def Length.read (l : Length) (lines : List (List Char)) : Length :=
  lines.foldl (fun l line => ((Statement.ofLine? line).map l.after).getD l) l

/-- Lines are read one after another. -/
theorem Length.read_cons (l : Length) (line : List Char) (lines : List (List Char)) :
    l.read (line :: lines) = (((Statement.ofLine? line).map l.after).getD l).read lines := rfl

/-- Reading two runs of lines is reading the first and then the second. -/
theorem Length.read_append (l : Length) (xs ys : List (List Char)) :
    l.read (xs ++ ys) = (l.read xs).read ys := List.foldl_append

end SynthControl.Sine
