import Mathlib.Data.List.Induction
import Mathlib.Data.Nat.Digits.Defs
import SynthControl.Decimal.Numeral

/-!
# The texts of numbers

Which texts are read as a number, and as which one, said by grammars that know nothing of how a text is
scanned.

* `IsDigits`, `digitsValue` — digits, and their value in the positional system;
* `Signed` — a text with an optional sign in front of it;
* `IsInteger`, `IsWord` — the texts of integers, and of those that fit 32 bits;
* `IsFraction`, `IsPower`, `IsNumeral` — the parts of a numeral;
* `IsFloat` — the texts of floats.

Main statements: `readInt?_eq_some_iff`, `readWord?_eq_some_iff`, `readFloat?_eq_some_iff` — **a text is read as a
number exactly if it is a text of that number**.
-/

namespace SynthControl.Decimal

/-! ### Grammars -/

/-- All characters are decimal digits. -/
def IsDigits (s : List Char) : Prop := ∀ c ∈ s, c.isDigit = true

/-- The value of digits, of which the last counts ones, the one before it tens, and so on. -/
def digitsValue (ds : List Char) : Nat :=
  Nat.ofDigits 10 (ds.reverse.map fun c => c.toNat - '0'.toNat)

/-- A text with an optional sign in front of it. -/
inductive Signed : Bool → List Char → List Char → Prop where
  | minus (r : List Char) : Signed true r ('-' :: r)
  | plus (r : List Char) : Signed false r ('+' :: r)
  | none (r : List Char) : Signed false r r

/-- A decimal integer: an optional sign and at least one digit. -/
inductive IsInteger : List Char → Int → Prop where
  | negative {ds s : List Char} (hs : Signed true ds s) (hd : IsDigits ds) (hn : ds ≠ []) :
      IsInteger s (-digitsValue ds)
  | positive {ds s : List Char} (hs : Signed false ds s) (hd : IsDigits ds) (hn : ds ≠ []) :
      IsInteger s (digitsValue ds)

/-- A decimal integer of 32 bits. -/
def IsWord (s : List Char) (n : Int) : Prop := IsInteger s n ∧ -2 ^ 31 ≤ n ∧ n < 2 ^ 31

/-- The fraction of a numeral: a point and digits, of which there may be none, or nothing at all. -/
inductive IsFraction : List Char → List Char → Prop where
  | absent : IsFraction [] []
  | written {ds : List Char} (hd : IsDigits ds) : IsFraction ds ('.' :: ds)

/-- A power of ten: its letter and an integer, or nothing at all. -/
inductive IsPower : Int → List Char → Prop where
  | absent : IsPower 0 []
  | written {c : Char} {e : Int} {s : List Char} (hc : c = 'e' ∨ c = 'E') (he : IsInteger s e) : IsPower e (c :: s)

/-- A numeral without its sign: digits, a fraction and a power of ten, with a digit before the power. -/
inductive IsNumeral : List Char → Numeral → Prop where
  | parts {n : Numeral} {fraction power : List Char} (hw : IsDigits n.whole) (hf : IsFraction n.fraction fraction)
      (hp : IsPower n.exponent power) (hn : n.whole ≠ [] ∨ n.fraction ≠ []) :
      IsNumeral (n.whole ++ fraction ++ power) n

/-- A float: a name of infinity, the name of what is no number, or a numeral, with an optional sign. -/
inductive IsFloat : List Char → Float → Prop where
  | infinity {negative : Bool} {r s : List Char} (hs : Signed negative r s)
      (hr : lower r = "inf".toList ∨ lower r = "infinity".toList) :
      IsFloat s (assemble negative (Nat.pow 2 52) 972)
  | nan {negative : Bool} {r s : List Char} (hs : Signed negative r s) (hr : lower r = "nan".toList) :
      IsFloat s (.ofBits 0x7FF8000000000000)
  | numeral {negative : Bool} {r s : List Char} {n : Numeral} (hs : Signed negative r s) (hr : IsNumeral r n) :
      IsFloat s (n.toFloat negative)

/-! ### Digits -/

theorem IsDigits.nil : IsDigits [] := nofun

/-- Digits are read from the left as they count from the right. -/
theorem ofDigits_eq (ds : List Char) : ofDigits ds = digitsValue ds := by
  induction ds using List.reverseRecOn with
  | nil => rfl
  | append_singleton ds c ih =>
    have hleft : ofDigits (ds ++ [c]) = 10 * ofDigits ds + (c.toNat - '0'.toNat) := by
      simp [ofDigits, List.foldl_append]
    have hright : digitsValue (ds ++ [c]) = (c.toNat - '0'.toNat) + 10 * digitsValue ds := by
      simp [digitsValue, Nat.ofDigits_cons]
    rw [hleft, hright, ih, Nat.add_comm]

/-- The digits in front of something that does not begin with one are all taken. -/
theorem takeDigits_append_of {ds rest : List Char} (hd : IsDigits ds) (hr : ∀ c r, rest = c :: r → c.isDigit = false) :
    takeDigits (ds ++ rest) = (ds, rest) := by
  have hrest : rest.takeWhile Char.isDigit = [] ∧ rest.dropWhile Char.isDigit = rest := by
    cases rest with
    | nil => exact ⟨rfl, rfl⟩
    | cons c r => simp [hr c r rfl]
  rw [takeDigits, List.takeWhile_append_of_pos hd, List.dropWhile_append_of_pos hd, hrest.1, hrest.2, List.append_nil]

/-- What is taken are digits, and what is left does not begin with one. -/
theorem takeDigits_spec {s ds rest : List Char} (h : takeDigits s = (ds, rest)) :
    IsDigits ds ∧ s = ds ++ rest := by
  obtain ⟨rfl, rfl⟩ := Prod.mk.inj h
  exact ⟨fun c => List.all_eq_true.1 List.all_takeWhile c, (takeDigits_append s).symm⟩

/-! ### Signs -/

theorem signed_takeSign (s : List Char) : Signed (takeSign s).1 (takeSign s).2 s := by
  rw [takeSign.eq_def]
  split
  · exact .minus _
  · exact .plus _
  · exact .none _

/-- A text that does not begin with a sign has the one in front of it taken. -/
theorem takeSign_of_signed {negative : Bool} {r s : List Char} (h : Signed negative r s)
    (hr : ∀ c r', r = c :: r' → c ≠ '-' ∧ c ≠ '+') : takeSign s = (negative, r) := by
  cases h with
  | minus => rfl
  | plus => rfl
  | none =>
    cases r with
    | nil => rfl
    | cons c r =>
      obtain ⟨hminus, hplus⟩ := hr c r rfl
      rw [takeSign.eq_def]
      split
      · next heq => exact absurd (List.cons.inj heq).1 hminus
      · next heq => exact absurd (List.cons.inj heq).1 hplus
      · rfl

/-- No sign is a digit. -/
theorem ne_sign_of_isDigit {c : Char} (h : c.isDigit = true) : c ≠ '-' ∧ c ≠ '+' := by
  constructor <;> rintro rfl <;> exact absurd h (by decide)

theorem takeSign_of_digits {negative : Bool} {ds s : List Char} (h : Signed negative ds s) (hd : IsDigits ds) :
    takeSign s = (negative, ds) :=
  takeSign_of_signed h fun c _ hc => ne_sign_of_isDigit (hd c (hc ▸ List.mem_cons_self))

/-! ### Integers -/

/-- **A text is read as an integer exactly if it is a text of it.** -/
theorem readInt?_eq_some_iff {s : List Char} {n : Int} : readInt? s = some n ↔ IsInteger s n := by
  constructor
  · intro h
    rw [readInt?] at h
    have hsigned := signed_takeSign s
    generalize takeSign s = p at h hsigned
    obtain ⟨negative, ds⟩ := p
    dsimp only at h hsigned
    split at h
    · cases h
    · next hc =>
      rw [Bool.or_eq_true, not_or] at hc
      have hd : IsDigits ds := by simpa [IsDigits] using hc.2
      have hn : ds ≠ [] := by simpa using hc.1
      obtain rfl := Option.some.inj h
      rw [ofDigits_eq]
      cases negative with
      | true => exact .negative hsigned hd hn
      | false => exact .positive hsigned hd hn
  · have hread : ∀ {negative : Bool} {ds : List Char}, Signed negative ds s → IsDigits ds → ds ≠ [] →
        readInt? s = some (if negative then -(digitsValue ds : Int) else digitsValue ds) := by
      intro negative ds hs hd hn
      have hc : ¬(ds.isEmpty || !ds.all Char.isDigit) = true := by
        simpa [hn, IsDigits] using hd
      rw [readInt?, takeSign_of_digits hs hd]
      dsimp only
      rw [if_neg hc, ofDigits_eq]
    intro h
    cases h with
    | negative hs hd hn => exact hread hs hd hn
    | positive hs hd hn => exact hread hs hd hn

/-- **A text is read as an integer of 32 bits exactly if it is a text of one.** -/
theorem readWord?_eq_some_iff {s : List Char} {n : Int} : readWord? s = some n ↔ IsWord s n := by
  rw [readWord?, Option.filter_eq_some_iff, readInt?_eq_some_iff, IsWord, isWord, Bool.and_eq_true, decide_eq_true_eq,
    decide_eq_true_eq]
  rfl

/-! ### Numerals -/

theorem readExponent?_eq_some_iff {s : List Char} {e : Int} : readExponent? s = some e ↔ IsPower e s := by
  cases s with
  | nil =>
    constructor
    · intro h
      obtain rfl := Option.some.inj h
      exact .absent
    · rintro ⟨⟩
      rfl
  | cons c r =>
    rw [readExponent?]
    constructor
    · intro h
      split at h
      · next hc => exact .written hc (readInt?_eq_some_iff.1 h)
      · cases h
    · rintro (_ | ⟨hc, he⟩)
      rw [if_pos hc]
      exact readInt?_eq_some_iff.2 he

/-- A power of ten does not begin with a digit, and not with a point. -/
theorem IsPower.head {e : Int} {s : List Char} (h : IsPower e s) :
    ∀ c r, s = c :: r → c.isDigit = false ∧ c ≠ '.' := by
  rintro c r rfl
  cases h with
  | written hc _ => rcases hc with rfl | rfl <;> decide

/-- **A text is a numeral exactly if these are its parts.** -/
theorem Numeral.ofChars?_eq_some_iff {s : List Char} {n : Numeral} : ofChars? s = some n ↔ IsNumeral s n := by
  constructor
  · intro h
    rw [ofChars?] at h
    rcases hwhole : takeDigits s with ⟨whole, rest⟩
    obtain ⟨hw, rfl⟩ := takeDigits_spec hwhole
    rw [hwhole] at h
    dsimp only at h
    -- the fraction, and what follows it
    have hparts : ∃ point fraction power, rest = point ++ power ∧ IsFraction fraction point ∧
        (if whole.isEmpty && fraction.isEmpty then none
          else (readExponent? power).map fun e => (⟨whole, fraction, e⟩ : Numeral)) = some n := by
      split at h
      · next r =>
        rcases hfraction : takeDigits r with ⟨fraction, power⟩
        obtain ⟨hf, rfl⟩ := takeDigits_spec hfraction
        rw [hfraction] at h
        exact ⟨'.' :: fraction, fraction, power, rfl, .written hf, h⟩
      · exact ⟨[], [], rest, rfl, .absent, h⟩
    obtain ⟨point, fraction, power, rfl, hf, h⟩ := hparts
    split at h
    · cases h
    · next hempty =>
      obtain ⟨e, he, rfl⟩ := Option.map_eq_some_iff.1 h
      have hn : whole ≠ [] ∨ fraction ≠ [] := by
        by_contra hc
        rw [not_or, not_not, not_not] at hc
        exact hempty (by simp [hc.1, hc.2])
      rw [← List.append_assoc]
      exact .parts (n := ⟨whole, fraction, e⟩) hw hf (readExponent?_eq_some_iff.1 he) hn
  · rintro (@⟨n, point, power, hw, hf, hp, hn⟩)
    obtain ⟨whole, fraction, e⟩ := n
    dsimp only at hw hf hp hn
    have hempty : ¬(whole.isEmpty && fraction.isEmpty) = true := by
      rcases hn with hn | hn <;> simp [hn]
    have hpower := readExponent?_eq_some_iff.2 hp
    cases hf with
    | absent =>
      have hwhole := takeDigits_append_of hw fun c r h => (hp.head c r h).1
      rw [ofChars?, List.append_nil, hwhole]
      dsimp only
      split
      · next heq => exact absurd rfl (hp.head _ _ rfl).2
      · dsimp only
        rw [if_neg hempty, hpower]
        rfl
    | written hd =>
      have hpoint : ∀ c r, '.' :: (fraction ++ power) = c :: r → c.isDigit = false := by
        rintro c r h
        obtain ⟨rfl, -⟩ := List.cons.inj h
        decide
      have hwhole := takeDigits_append_of hw hpoint
      have hfraction := takeDigits_append_of hd fun c r h => (hp.head c r h).1
      rw [ofChars?, List.append_assoc, List.cons_append, hwhole]
      simp only [hfraction, hpower, if_neg hempty, Option.map_some]

/-- A numeral begins with a digit or with a point. -/
theorem IsNumeral.head {s : List Char} {n : Numeral} (h : IsNumeral s n) :
    ∃ c r, s = c :: r ∧ (c.isDigit = true ∨ c = '.') := by
  obtain ⟨hw, hf, -, hn⟩ := h
  obtain ⟨whole, fraction, e⟩ := n
  cases whole with
  | cons c ds => exact ⟨c, _, rfl, .inl (hw c List.mem_cons_self)⟩
  | nil =>
    cases hf with
    | absent => simp at hn
    | written hd => exact ⟨'.', _, rfl, .inr rfl⟩

/-! ### Floats -/

/-- Neither a digit nor a point has another form in lower case. -/
theorem toLower_of_isDigit {c : Char} (h : c.isDigit = true ∨ c = '.') : c.toLower = c := by
  delta Char.toLower
  split
  · next hu =>
    rcases h with h | rfl
    · rw [Char.isDigit, Bool.and_eq_true, decide_eq_true_eq, decide_eq_true_eq] at h
      exact absurd (UInt32.le_trans hu.1 h.2) (by decide)
    · exact absurd hu (by decide)
  · rfl

/-- A text whose lower case begins with a letter has no sign in front of it. -/
theorem no_sign_of_lower {r : List Char} {c : Char} {t : List Char} (h : lower r = c :: t)
    (hc : c ≠ '-' ∧ c ≠ '+') : ∀ d r', r = d :: r' → d ≠ '-' ∧ d ≠ '+' := by
  rintro d r' rfl
  obtain ⟨hd, -⟩ := List.cons.inj h
  constructor <;> rintro rfl
  · exact hc.1 hd.symm
  · exact hc.2 hd.symm

/-- A numeral is no name. -/
theorem IsNumeral.lower_ne {s t : List Char} {n : Numeral} {c : Char} (h : IsNumeral s n) (hc : c.isDigit = false)
    (hp : c ≠ '.') : lower s ≠ c :: t := by
  obtain ⟨d, r, rfl, hd⟩ := h.head
  intro heq
  obtain ⟨hlower, -⟩ := List.cons.inj heq
  rw [toLower_of_isDigit hd] at hlower
  subst hlower
  rcases hd with hd | hd
  · rw [hc] at hd
    cases hd
  · exact hp hd

/-- **A text is read as a float exactly if it is a text of it.** -/
theorem readFloat?_eq_some_iff {s : List Char} {x : Float} : readFloat? s = some x ↔ IsFloat s x := by
  constructor
  · intro h
    rw [readFloat?] at h
    have hsigned := signed_takeSign s
    generalize takeSign s = p at h hsigned
    obtain ⟨negative, r⟩ := p
    dsimp only at h hsigned
    split at h
    · next hr =>
      obtain rfl := Option.some.inj h
      exact .infinity hsigned hr
    · split at h
      · next hr =>
        obtain rfl := Option.some.inj h
        exact .nan hsigned hr
      · obtain ⟨n, hn, rfl⟩ := Option.map_eq_some_iff.1 h
        exact .numeral hsigned (Numeral.ofChars?_eq_some_iff.1 hn)
  · intro h
    rw [readFloat?]
    cases h with
    | @infinity negative r _ hs hr =>
      have hsign : takeSign s = (negative, r) := by
        rcases hr with hr | hr <;> exact takeSign_of_signed hs (no_sign_of_lower hr (by decide))
      rw [hsign]
      exact if_pos hr
    | @nan negative r _ hs hr =>
      rw [takeSign_of_signed hs (no_sign_of_lower hr (by decide))]
      have hne : ¬(lower r = "inf".toList ∨ lower r = "infinity".toList) := by
        rw [hr]
        decide
      dsimp only
      rw [if_neg hne, if_pos hr]
    | @numeral negative r _ n hs hr =>
      have hsign : takeSign s = (negative, r) := by
        refine takeSign_of_signed hs ?_
        rintro c r' rfl
        obtain ⟨d, _, heq, hd⟩ := hr.head
        obtain ⟨rfl, -⟩ := List.cons.inj heq
        rcases hd with hd | rfl
        · exact ne_sign_of_isDigit hd
        · decide
      have hinf : ¬(lower r = "inf".toList ∨ lower r = "infinity".toList) :=
        not_or.2 ⟨hr.lower_ne (by decide) (by decide), hr.lower_ne (by decide) (by decide)⟩
      have hnan : lower r ≠ "nan".toList := hr.lower_ne (by decide) (by decide)
      rw [hsign]
      dsimp only
      rw [if_neg hinf, if_neg hnan, Numeral.ofChars?_eq_some_iff.2 hr]
      rfl

end SynthControl.Decimal
