import SynthControl.Text.Scan
import SynthControl.Toml.Layout

/-!
# Quoted texts of TOML

Between double quotes a backslash begins an escape; between single quotes it is a character like any other.
Three quotes begin a text over several lines.

* `Quote` — the two kinds of quotes;
* `escape?` — what stands behind a backslash;
* `line?` — a quoted text on one line, behind its opening quote;
* `block?` — a quoted text over several lines, behind its opening quotes;
* `quoted?` — any quoted text.

Main statement: `length_escape?` (an escape has at least one character).
-/

namespace SynthControl.Toml

/-- The kinds of quotes. -/
inductive Quote where
  /-- Double quotes, between which there are escapes. -/
  | double
  | single
  deriving DecidableEq, Repr

/-- The character of a quote. -/
def Quote.mark : Quote → Char
  | double => '\x22'
  | single => '\x27'

/-- The kind of a quote by its character. -/
def Quote.ofChar? (c : Char) : Option Quote :=
  if c = double.mark then some double else if c = single.mark then some single else none

/-- The value of a hexadecimal digit. -/
def hexValue? (c : Char) : Option Nat :=
  if c.isDigit then some (c.toNat - '0'.toNat)
  else if 'a' ≤ c ∧ c ≤ 'f' then some (c.toNat - 'a'.toNat + 10)
  else if 'A' ≤ c ∧ c ≤ 'F' then some (c.toNat - 'A'.toNat + 10)
  else none

/-- The number that is written with the digits of a base up to sixteen. -/
def ofHexDigits? (base : Nat) (ds : List Char) : Option Nat :=
  ds.foldl (fun n c => n.bind fun n => (hexValue? c).map fun d => base * n + d) (some 0)

/-- The character whose number is written in `n` hexadecimal digits. -/
def codePoint? (n : Nat) (s : List Char) : Option (Char × List Char) :=
  let ds := s.take n
  if ds.length = n then
    (ofHexDigits? 16 ds).bind fun v =>
      if v.isValidChar then some (Char.ofNat v, s.drop n) else none
  else none

/-- The character that an escape stands for, behind the backslash. -/
def escape? : Reader Char
  | [] => none
  | c :: r =>
    match c with
    | 'b' => some ('\x08', r)
    | 't' => some ('\t', r)
    | 'n' => some ('\n', r)
    | 'f' => some ('\x0c', r)
    | 'r' => some ('\r', r)
    | '\x22' => some ('\x22', r)
    | '\\' => some ('\\', r)
    | 'u' => codePoint? 4 r
    | 'U' => codePoint? 8 r
    | _ => none

theorem length_codePoint? {n : Nat} {s r : List Char} {c : Char} (h : codePoint? n s = some (c, r)) :
    r.length ≤ s.length := by
  simp only [codePoint?] at h
  split at h
  · obtain ⟨v, _, h⟩ := Option.bind_eq_some_iff.1 h
    split at h
    · cases h; simp
    · simp at h
  · simp at h

theorem length_escape? {s r : List Char} {c : Char} (h : escape? s = some (c, r)) :
    r.length < s.length := by
  cases s with
  | nil => simp [escape?] at h
  | cons a s =>
    simp only [escape?] at h
    split at h
    case h_8 | h_9 => exact Nat.lt_succ_of_le (length_codePoint? h)
    all_goals first | (cases h; simp) | simp at h

/-- The rest of a quoted text on one line. -/
def line? (q : Quote) (s : List Char) : Option (List Char × List Char) :=
  match s with
  | [] => none
  | c :: r =>
    if c = q.mark then some ([], r)
    else if c = '\\' ∧ q = .double then
      match h : escape? r with
      | none => none
      | some (e, r') =>
        have := length_escape? h
        (line? q r').map fun p => (e :: p.1, p.2)
    else if isPlain c then (line? q r).map fun p => (c :: p.1, p.2)
    else none
termination_by s.length
decreasing_by all_goals simp_all; try omega

/-- What follows a backslash at the end of a line: blanks and line ends are dropped up to the next
character. -/
def joinLines? (s : List Char) : Option (List Char) := (newline? (skipBlanks s)).map skipEmpty

theorem length_joinLines? {s r : List Char} (h : joinLines? s = some r) : r.length ≤ s.length := by
  obtain ⟨t, ht, rfl⟩ := Option.map_eq_some_iff.1 h
  have h1 := length_newline? ht
  have h2 := length_skipEmpty t
  have h3 : (skipBlanks s).length ≤ s.length := (List.dropWhile_suffix _).length_le
  omega

/-- The rest of a quoted text over several lines.  One or two quotes belong to the text; of three and more
the last three end it, and at most two before them belong to it. -/
def block? (q : Quote) (s : List Char) : Option (List Char × List Char) :=
  match s with
  | [] => none
  | c :: r =>
    if c = q.mark then
      match Text.after? [q.mark, q.mark] r with
      | some r' =>
        let extra := (r'.take 2).takeWhile (· == q.mark)
        some (extra, r'.drop extra.length)
      | none => (block? q r).map fun p => (c :: p.1, p.2)
    else if c = '\\' ∧ q = .double then
      match hj : joinLines? r with
      | some r' =>
        have := length_joinLines? hj
        block? q r'
      | none =>
        match h : escape? r with
        | none => none
        | some (e, r') =>
          have := length_escape? h
          (block? q r').map fun p => (e :: p.1, p.2)
    else
      match hn : newline? (c :: r) with
      | some r' =>
        have : r'.length < r.length + 1 := length_newline? hn
        (block? q r').map fun p => ('\n' :: p.1, p.2)
      | none => if isPlain c then (block? q r).map fun p => (c :: p.1, p.2) else none
termination_by s.length
decreasing_by all_goals simp_all; try omega

/-- What follows a line end, if there is one. -/
def skipNewline (s : List Char) : List Char := (newline? s).getD s

/-- A quoted text behind its first quote.  A line end right after three quotes does not belong to the
text. -/
def quoted? (q : Quote) (s : List Char) : Option (List Char × List Char) :=
  match Text.after? [q.mark, q.mark] s with
  | some body => block? q (skipNewline body)
  | none => line? q s

end SynthControl.Toml
