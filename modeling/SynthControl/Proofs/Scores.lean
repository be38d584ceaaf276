import Mathlib.Data.List.Induction
import SynthControl.Sine.State

/-!
# Scores are read line by line

A score is read for its end and for the number of its notes, and it may come in several pieces.  Where it is cut makes
no difference, as long as it is cut between two lines; and neither do lines that say nothing.

* `lines_line_feed`, `lines_of_line`, `text_induction` — a text is a line, or a line with a text below it;
* `words_trim` — blanks around a line do not change its words;
* `Sine.isNote`, `Sine.isIdle`, `Sine.notesIn` — lines that are notes, lines that say nothing, and how many notes there
  are in a score;
* `Length.read_eq` — **what is read of some lines**: an end that does not depend on how many notes came before, and as
  many notes as there are lines that are one;
* `Length.read_lines_append`, `Length.read_idle` — **a text is read piece by piece**, and idle lines are not read;
* `Sine.readScore_pieces` — **both for the scores that an engine is given**.

How numbers are read, added and compared is not looked into.
-/

namespace SynthControl

/-! ### Lines and words -/

namespace Text

/-- A line without the carriage return at its end. -/
def chomp : List Char → List Char
  | [] => []
  | ['\r'] => []
  | c :: w => c :: chomp w

theorem chomp_cons_cons (c d : Char) (w : List Char) : chomp (c :: d :: w) = c :: chomp (d :: w) := by
  rw [chomp]
  exact fun _ h => List.cons_ne_nil d w h

/-- A line that does not begin with a line end begins with its first character. -/
theorem lines_cons {c : Char} {r : List Char} (hc : c ≠ '\n') (hr : c = '\r' → r.head? ≠ some '\n') :
    lines (c :: r) = onFirstLine c (lines r) := by
  rw [lines]
  · exact hc
  · rintro r' rfl rfl
    exact hr rfl rfl

/-- What stands before the first line feed is the first line. -/
theorem lines_line_feed {w : List Char} (hw : '\n' ∉ w) (b : List Char) :
    lines (w ++ '\n' :: b) = chomp w :: lines b := by
  induction w with
  | nil => rfl
  | cons c w ih =>
    obtain ⟨hc, hw⟩ : c ≠ '\n' ∧ '\n' ∉ w := by simpa [eq_comm] using hw
    cases w with
    | nil =>
      by_cases hr : c = '\r'
      · subst hr
        rfl
      · rw [List.singleton_append, lines_cons hc fun h => absurd h hr, lines, chomp]
        · rfl
        · exact fun h => absurd h hr
    | cons d w =>
      have hd : d ≠ '\n' := fun h => hw (h ▸ List.mem_cons_self)
      rw [List.cons_append, lines_cons hc fun _ => by simpa using hd, ih hw, onFirstLine, chomp_cons_cons]

/-- A text without a line feed is one line, or nothing. -/
theorem lines_of_line {w : List Char} (hw : '\n' ∉ w) : lines w = if w = [] then [] else [w] := by
  induction w with
  | nil => rfl
  | cons c w ih =>
    obtain ⟨hc, hw⟩ : c ≠ '\n' ∧ '\n' ∉ w := by simpa [eq_comm] using hw
    have hhead : w.head? ≠ some '\n' := fun h => hw (List.mem_of_mem_head? h)
    rw [lines_cons hc fun _ => hhead, ih hw, if_neg (List.cons_ne_nil c w)]
    cases w <;> rfl

/-- A text is a line, or a line with a text below it. -/
theorem text_induction {P : List Char → Prop} (hline : ∀ w, '\n' ∉ w → P w)
    (hbelow : ∀ w s, '\n' ∉ w → P s → P (w ++ '\n' :: s)) (s : List Char) : P s := by
  suffices h : ∀ w, '\n' ∉ w → P (w ++ s) from h [] List.not_mem_nil
  induction s with
  | nil =>
    intro w hw
    rw [List.append_nil]
    exact hline w hw
  | cons c s ih =>
    intro w hw
    by_cases hc : c = '\n'
    · subst hc
      exact hbelow w s hw (ih [] List.not_mem_nil)
    · have hlonger : '\n' ∉ w ++ [c] := by simpa [hw] using Ne.symm hc
      simpa using ih (w ++ [c]) hlonger

/-- A blank in front changes no word. -/
theorem words_cons_blank {c : Char} (hc : isBlank c = true) (s : List Char) : words (c :: s) = words s := by
  simp [words, wordsFrom, hc]

theorem wordsFrom_concat_blank {c : Char} (hc : isBlank c = true) (word s : List Char) :
    wordsFrom word (s ++ [c]) = wordsFrom word s := by
  induction s generalizing word with
  | nil =>
    rw [List.nil_append, wordsFrom.eq_2, if_pos hc]
    simp [wordsFrom]
  | cons d s ih =>
    rw [List.cons_append, wordsFrom, wordsFrom]
    simp only [ih]

/-- A blank behind changes no word. -/
theorem words_concat_blank {c : Char} (hc : isBlank c = true) (s : List Char) : words (s ++ [c]) = words s :=
  wordsFrom_concat_blank hc [] s

/-- Blanks around a line change none of its words. -/
theorem words_trim (s : List Char) : words (trim s) = words s := by
  have hright : ∀ s, words (trimRight s) = words s := by
    intro s
    induction s using List.reverseRecOn with
    | nil => rfl
    | append_singleton s c ih =>
      by_cases hc : isBlank c = true
      · rw [words_concat_blank hc, ← ih]
        simp [trimRight, hc]
      · simp [trimRight, hc]
  have hleft : words (trimLeft s) = words s := by
    induction s with
    | nil => rfl
    | cons c s ih =>
      by_cases hc : isBlank c = true
      · rw [words_cons_blank hc, ← ih]
        simp [trimLeft, hc]
      · simp [trimLeft, hc]
  rw [trim, hright, hleft]

/-- Neither does a carriage return that is dropped. -/
theorem words_chomp (w : List Char) : words (chomp w) = words w := by
  suffices h : ∀ word, wordsFrom word (chomp w) = wordsFrom word w from h []
  induction w with
  | nil => exact fun _ => rfl
  | cons c w ih =>
    intro word
    by_cases hlast : c = '\r' ∧ w = []
    · obtain ⟨rfl, rfl⟩ := hlast
      exact (wordsFrom_concat_blank rfl word []).symm
    · rw [chomp]
      · simp only [wordsFrom, ih]
      · rintro rfl rfl
        exact hlast ⟨rfl, rfl⟩

end Text

namespace Sine

open Text

/-! ### What a line says -/

/-- The line is a note: its first word is `i`, and at least three of the others are numbers. -/
def isNote (line : List Char) : Bool :=
  match words line with
  | ['i'] :: rest => 3 ≤ (rest.filterMap Decimal.readFloat?).length
  | _ => false

/-- The line says nothing: its first word, if it has one, is neither `i` nor `e`, or it is `i` and fewer than three of
the others are numbers. -/
def isIdle (line : List Char) : Bool :=
  match words line with
  | ['i'] :: rest => (rest.filterMap Decimal.readFloat?).length < 3
  | ['e'] :: _ => false
  | _ => true

/-- The notes in a score. -/
def notesIn (score : List Char) : Nat := (lines score).countP isNote

namespace Statement

/-- What a line says is in its words. -/
theorem ofLine?_congr {v w : List Char} (h : words v = words w) : ofLine? v = ofLine? w := by
  rw [ofLine?, ofLine?, words_trim, words_trim, h]

/-- A line is idle, it is a note, or it is an end statement. -/
theorem ofLine?_cases (line : List Char) :
    (isIdle line = true ∧ isNote line = false ∧ ofLine? line = none) ∨
      (isIdle line = false ∧ isNote line = true ∧ ∃ stop, ofLine? line = some (.note stop)) ∨
      (isIdle line = false ∧ isNote line = false ∧ ofLine? line = some .finish) := by
  rw [isIdle, isNote, ofLine?, words_trim]
  generalize words line = ws
  by_cases hi : ∃ rest, ws = ['i'] :: rest
  · obtain ⟨rest, rfl⟩ := hi
    rcases hn : rest.filterMap Decimal.readFloat? with _ | ⟨p, _ | ⟨start, _ | ⟨duration, more⟩⟩⟩
    · exact .inl (by simp [hn])
    · exact .inl (by simp [hn])
    · exact .inl (by simp [hn])
    · exact .inr (.inl (by simp [hn]))
  by_cases he : ∃ rest, ws = ['e'] :: rest
  · obtain ⟨rest, rfl⟩ := he
    exact .inr (.inr ⟨rfl, rfl, rfl⟩)
  · -- the first word is neither
    refine .inl ⟨?_, ?_, ?_⟩
    · split
      · exact absurd ⟨_, rfl⟩ hi
      · exact absurd ⟨_, rfl⟩ he
      · rfl
    · split
      · exact absurd ⟨_, rfl⟩ hi
      · rfl
    · split
      · exact absurd ⟨_, rfl⟩ hi
      · exact absurd ⟨_, rfl⟩ he
      · rfl

end Statement

/-! ### What is read of some lines -/

namespace Length

/-- **The end does not depend on how many notes came before, and the notes are counted.** -/
theorem read_eq (stop : Option Float) (n : Nat) (ls : List (List Char)) :
    read ⟨stop, n⟩ ls = ⟨(read ⟨stop, 0⟩ ls).stop, n + ls.countP isNote⟩ := by
  induction ls generalizing stop n with
  | nil => rfl
  | cons line ls ih =>
    rw [read_cons, read_cons]
    obtain ⟨-, hnote, hmeans⟩ | ⟨-, hnote, stop', hmeans⟩ | ⟨-, hnote, hmeans⟩ := Statement.ofLine?_cases line
    · rw [hmeans, List.countP_cons_of_neg (by simp [hnote])]
      exact ih stop n
    · rw [hmeans, List.countP_cons_of_pos hnote]
      simp only [Option.map_some, Option.getD_some, after]
      rw [ih _ (n + 1), ih _ (0 + 1), Nat.add_right_comm, Nat.add_assoc]
    · rw [hmeans, List.countP_cons_of_neg (by simp [hnote])]
      exact ih _ n

theorem notes_read (l : Length) (ls : List (List Char)) : (l.read ls).notes = l.notes + ls.countP isNote := by
  obtain ⟨stop, n⟩ := l
  rw [read_eq]

/-- Lines with the same words are read alike. -/
theorem read_cons_congr (l : Length) {v w : List Char} (h : words v = words w) (ls : List (List Char)) :
    l.read (v :: ls) = l.read (w :: ls) := by
  rw [read_cons, read_cons, Statement.ofLine?_congr h]

/-- **Idle lines are not read.** -/
theorem read_idle (l : Length) (ls : List (List Char)) : l.read (ls.filter fun line => !isIdle line) = l.read ls := by
  induction ls generalizing l with
  | nil => rfl
  | cons line ls ih =>
    obtain ⟨hidle, -, hmeans⟩ | ⟨hidle, -⟩ | ⟨hidle, -⟩ := Statement.ofLine?_cases line
    · rw [List.filter_cons_of_neg (by simp [hidle]), ih, read_cons, hmeans]
      rfl
    · rw [List.filter_cons_of_pos (by simp [hidle]), read_cons, read_cons, ih]
    · rw [List.filter_cons_of_pos (by simp [hidle]), read_cons, read_cons, ih]

/-- A text without a line feed is read as one line, also if it is empty. -/
theorem read_lines_of_line (l : Length) {w : List Char} (hw : '\n' ∉ w) : l.read (lines w) = l.read [w] := by
  rw [lines_of_line hw]
  split
  · next h =>
    subst h
    rfl
  · rfl

/-- **A text is read piece by piece**, if it is cut at a line feed.  The induction is on the lines of the first
piece; what remains of its last one, a carriage return at the end apart, is a line by itself. -/
theorem read_lines_append (l : Length) (a b : List Char) :
    l.read (lines (a ++ '\n' :: b)) = (l.read (lines a)).read (lines b) := by
  induction a using text_induction generalizing l with
  | hline w hw =>
    rw [lines_line_feed hw, read_cons_congr l (words_chomp w), read_lines_of_line l hw]
    exact read_append l [w] (lines b)
  | hbelow w s hw ih =>
    rw [List.append_assoc, List.cons_append, lines_line_feed hw, lines_line_feed hw, read_cons, read_cons, ih]

/-- Lines that are put together to a text are read one after another. -/
theorem read_lines_intercalate (l : Length) {ls : List (List Char)} (hls : ∀ line ∈ ls, '\n' ∉ line) :
    l.read (lines (['\n'].intercalate ls)) = l.read ls := by
  induction ls generalizing l with
  | nil => rfl
  | cons line ls ih =>
    have hline : '\n' ∉ line := hls line List.mem_cons_self
    cases ls with
    | nil =>
      rw [List.intercalate_singleton]
      exact read_lines_of_line l hline
    | cons next ls =>
      rw [List.intercalate_cons_cons, List.append_assoc, List.singleton_append, read_lines_append,
        ih _ fun x hx => hls x (List.mem_cons_of_mem _ hx), read_lines_of_line l hline]
      exact (read_append l [line] (next :: ls)).symm

end Length

/-! ### The scores of an engine -/

/-- The line that is printed about a score. -/
def scoreLine (notes : Nat) : String := "read " ++ toString notes ++ " score events"

/-- **What an engine makes of a score**: it moves the end, and prints how many notes there are. -/
theorem readScore_eq (s : Sine) (score : List Char) :
    s.readScore score =
      { s with
        duration := (Length.read ⟨s.duration, 0⟩ (lines score)).stop
        scorePending := true
        printed := s.printed ++ [scoreLine (notesIn score)] } := by
  have hnotes : (Length.read ⟨s.duration, 0⟩ (lines score)).notes = notesIn score := by
    rw [Length.notes_read, notesIn, Nat.zero_add]
  rw [readScore, hnotes]
  rfl

/-- The notes of a score are those of its pieces. -/
theorem notesIn_append (a b : List Char) : notesIn (a ++ '\n' :: b) = notesIn a + notesIn b := by
  have h := congrArg Length.notes (Length.read_lines_append ⟨none, 0⟩ a b)
  rw [Length.notes_read, Length.notes_read, Length.notes_read] at h
  simpa [notesIn] using h

/-- **A score may come in pieces, and lines that say nothing make no difference.**  For every engine:

* a score of two pieces with a line feed between them leaves the engine that the first piece and then the second leave,
  but for what is printed;
* the notes that are reported for it are as many as are reported for the two pieces;
* of two scores whose lines are the same, but for idle ones here and there, the engine makes the same.

The pieces may be empty and may end with line ends, and a line may end with a carriage return. -/
theorem readScore_pieces (s : Sine) (a b : String) :
    let pieces := (s.readScore a.toList).readScore b.toList
    s.readScore (a ++ "\n" ++ b).toList =
        { pieces with printed := s.printed ++ [scoreLine (notesIn a.toList + notesIn b.toList)] } ∧
      pieces.printed = s.printed ++ [scoreLine (notesIn a.toList), scoreLine (notesIn b.toList)] ∧
      pieces.scorePending = true ∧
      ∀ xs ys : List String, (∀ line ∈ xs ++ ys, '\n' ∉ line.toList) →
        (xs.filter fun line => !isIdle line.toList) = (ys.filter fun line => !isIdle line.toList) →
          s.readScore ("\n".intercalate xs).toList = s.readScore ("\n".intercalate ys).toList := by
  intro pieces
  have hpieces : pieces = { s with
      duration := ((Length.read ⟨s.duration, 0⟩ (lines a.toList)).read (lines b.toList)).stop
      scorePending := true
      printed := s.printed ++ [scoreLine (notesIn a.toList), scoreLine (notesIn b.toList)] } := by
    rw [Length.read_eq s.duration 0 (lines a.toList), Length.read_eq _ _ (lines b.toList)]
    simp only [pieces, readScore_eq, List.append_assoc, List.singleton_append]
  refine ⟨?_, by rw [hpieces], by rw [hpieces], fun xs ys hlines hsame => ?_⟩
  · have htext : (a ++ "\n" ++ b).toList = a.toList ++ '\n' :: b.toList := by simp
    rw [hpieces, htext, readScore_eq, Length.read_lines_append, notesIn_append]
  · -- both texts are read as their lines, and these are the same once the idle ones are gone
    have hread : ∀ zs : List String, (∀ line ∈ zs, '\n' ∉ line.toList) → ∀ l : Length,
        l.read (lines ("\n".intercalate zs).toList) =
          l.read ((zs.filter fun line => !isIdle line.toList).map String.toList) := by
      intro zs hzs l
      have hfeed : "\n".toList = ['\n'] := rfl
      rw [String.toList_intercalate, hfeed, Length.read_lines_intercalate l (by simpa using hzs),
        ← Length.read_idle, List.filter_map]
      rfl
    have hx := hread xs fun line hline => hlines line (List.mem_append_left _ hline)
    have hy := hread ys fun line hline => hlines line (List.mem_append_right _ hline)
    rw [readScore, readScore, hx, hy, hsame]

/-- A remark, a note whose start is no number and an empty line say nothing; what is left is a note and the end. -/
theorem readScore_pieces_remarks :
    let s := fresh {}
    let xs := ["i 1 0 2\r", "; second part", " i 1 later 3 ", "e", ""]
    let ys := ["i 1 0 2\r", "e"]
    (∀ line ∈ xs ++ ys, '\n' ∉ line.toList) ∧
      (xs.filter fun line => !isIdle line.toList) = (ys.filter fun line => !isIdle line.toList) ∧
      s.readScore ("\n".intercalate xs).toList = s.readScore ("\n".intercalate ys).toList ∧
      notesIn ("\n".intercalate xs).toList = 1 := by
  intro s xs ys
  have hlines : ∀ line ∈ xs ++ ys, '\n' ∉ line.toList := by decide
  have hsame : (xs.filter fun line => !isIdle line.toList) = (ys.filter fun line => !isIdle line.toList) := by decide
  obtain ⟨-, -, -, hidle⟩ := readScore_pieces s "" ""
  exact ⟨hlines, hsame, hidle xs ys hlines hsame, by decide⟩

end Sine
end SynthControl
