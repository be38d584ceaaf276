/-!
# Layout of a TOML text

The characters that carry no value: blanks, line ends and comments.  A reader takes a value from the
beginning of a text and returns it with the rest; it refuses what does not begin with such a value.

* `Reader` — readers;
* `isPlain` — the characters of comments and of unescaped text;
* `skipBlanks`, `newline?`, `skipComment`, `lineEnd?` — the parts of a line that carry no value;
* `skipLayout` — blanks, line ends and comments between the elements of an array.

Main statements: `length_newline?`, `length_skipLayout` (skipping never makes a text longer).
-/

namespace SynthControl.Toml

/-- Takes a value from the beginning of a text. -/
abbrev Reader (α : Type) := List Char → Option (α × List Char)

/-- A space or a tab. -/
def isBlank (c : Char) : Bool := c == ' ' || c == '\t'

/-- A character that is not a control character; a tab is none. -/
def isPlain (c : Char) : Bool :=
  c == '\t' || (0x20 ≤ c.toNat && c.toNat != 0x7F)

/-- What follows the blanks at the beginning. -/
def skipBlanks (s : List Char) : List Char := s.dropWhile isBlank

/-- What follows a line end: a line feed, with or without a carriage return before it. -/
def newline? : List Char → Option (List Char)
  | '\n' :: r => some r
  | '\r' :: '\n' :: r => some r
  | _ => none

/-- What follows a comment, if there is one. -/
def skipComment : List Char → List Char
  | '#' :: r => r.dropWhile isPlain
  | s => s

/-- What follows the rest of a line that holds no more values; the text may end here. -/
def lineEnd? (s : List Char) : Option (List Char) :=
  match skipComment (skipBlanks s) with
  | [] => some []
  | r => newline? r

/-- What follows blanks, line ends and comments; `inComment` tells whether a comment has begun. -/
def skipLayout (inComment : Bool) : List Char → List Char
  | [] => []
  | '\n' :: r => skipLayout false r
  | '\r' :: '\n' :: r => skipLayout false r
  | c :: r =>
    if inComment then
      if isPlain c then skipLayout true r else c :: r
    else if isBlank c then skipLayout false r
    else if c = '#' then skipLayout true r
    else c :: r

/-- What follows blanks and line ends. -/
def skipEmpty : List Char → List Char
  | [] => []
  | '\n' :: r => skipEmpty r
  | '\r' :: '\n' :: r => skipEmpty r
  | c :: r => if isBlank c then skipEmpty r else c :: r

/-! ### Skipping never makes a text longer -/

theorem length_newline? {s r : List Char} (h : newline? s = some r) : r.length < s.length := by
  simp only [newline?] at h
  split at h
  · cases h
    exact Nat.lt_succ_self _
  · cases h
    exact Nat.lt_succ_of_lt (Nat.lt_succ_self _)
  · simp at h

theorem length_skipLayout (inComment : Bool) (s : List Char) :
    (skipLayout inComment s).length ≤ s.length := by
  fun_induction skipLayout inComment s <;> simp <;> omega

theorem length_skipEmpty (s : List Char) : (skipEmpty s).length ≤ s.length := by
  fun_induction skipEmpty s <;> simp <;> omega

end SynthControl.Toml
