/-!
# Scanning text

Text is taken apart as a list of characters.  A blank is any character of the Unicode property
"white space".

* `isBlank`, `trim`, `words` — blanks, a text without the blanks around it, its runs of non-blanks;
* `lines` — the lines of a text, without their line ends;
* `after?` — the rest of a text behind a given beginning;
* `splitFirst?` — a text cut at the first occurrence of a mark.

Main statements: `after?_eq_some_iff`, `splitFirst?_eq_some` (the parts and the mark make up the text).
-/

namespace SynthControl.Text

/-- The Unicode property "white space". -/
def isBlank (c : Char) : Bool :=
  let n := c.toNat
  (9 ≤ n && n ≤ 13) || n == 32 || n == 0x85 || n == 0xA0 || n == 0x1680
    || (0x2000 ≤ n && n ≤ 0x200A) || n == 0x2028 || n == 0x2029 || n == 0x202F || n == 0x205F
    || n == 0x3000

/-- A text without its leading blanks. -/
def trimLeft (s : List Char) : List Char := s.dropWhile isBlank

/-- A text without its trailing blanks. -/
def trimRight (s : List Char) : List Char := (s.reverse.dropWhile isBlank).reverse

/-- A text without the blanks around it. -/
def trim (s : List Char) : List Char := trimRight (trimLeft s)

/-- The maximal runs of non-blanks, from left to right, with the run that is being read. -/
def wordsFrom (word : List Char) : List Char → List (List Char)
  | [] => if word.isEmpty then [] else [word.reverse]
  | c :: r =>
    if isBlank c then
      if word.isEmpty then wordsFrom [] r else word.reverse :: wordsFrom [] r
    else wordsFrom (c :: word) r

/-- The maximal runs of non-blanks, from left to right. -/
def words (s : List Char) : List (List Char) := wordsFrom [] s

/-! ### Lines -/

/-- Put a character in front of the first line. -/
def onFirstLine (c : Char) : List (List Char) → List (List Char)
  | [] => [[c]]
  | l :: ls => (c :: l) :: ls

/-- The lines of a text.  A line ends at a line feed, with which a carriage return right before it is
dropped; what follows the last line feed is a line unless it is empty. -/
def lines : List Char → List (List Char)
  | [] => []
  | '\n' :: r => [] :: lines r
  | '\r' :: '\n' :: r => [] :: lines r
  | c :: r => onFirstLine c (lines r)

/-! ### Cutting at a mark -/

/-- What follows `lead` at the beginning of a text. -/
def after? : List Char → List Char → Option (List Char)
  | [], s => some s
  | _ :: _, [] => none
  | a :: lead, c :: s => if a = c then after? lead s else none

/-- A text has the part after `lead` exactly when it is `lead` and that part. -/
theorem after?_eq_some_iff {lead s r : List Char} : after? lead s = some r ↔ s = lead ++ r := by
  induction lead generalizing s with
  | nil => simp [after?]
  | cons a lead ih =>
    cases s with
    | nil => simp [after?]
    | cons c s => by_cases h : a = c <;> simp [after?, h, ih, eq_comm]

/-- A text cut at the first occurrence of `mark`: what stands before it and what follows it. -/
def splitFirst? (mark : List Char) : List Char → Option (List Char × List Char)
  | [] => if mark.isEmpty then some ([], []) else none
  | c :: r =>
    match after? mark (c :: r) with
    | some rest => some ([], rest)
    | none => (splitFirst? mark r).map fun p => (c :: p.1, p.2)

/-- Nothing is lost by cutting. -/
theorem splitFirst?_eq_some {mark s a b : List Char} (h : splitFirst? mark s = some (a, b)) :
    s = a ++ mark ++ b := by
  induction s generalizing a with
  | nil =>
    simp only [splitFirst?] at h
    split at h
    · next hm => simp_all
    · simp at h
  | cons c r ih =>
    simp only [splitFirst?] at h
    split at h
    · next rest hr =>
      obtain ⟨rfl, rfl⟩ : [] = a ∧ rest = b := by simpa using h
      simpa using after?_eq_some_iff.1 hr
    · next hr =>
      obtain ⟨p, hp, hab⟩ := Option.map_eq_some_iff.1 h
      obtain ⟨rfl, rfl⟩ : c :: p.1 = a ∧ p.2 = b := by simpa using hab
      simpa using ih (a := p.1) hp

end SynthControl.Text
