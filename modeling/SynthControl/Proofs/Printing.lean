import SynthControl.Proofs.Shortest
import SynthControl.Toml.Document
import SynthControl.Toml.Printer

/-!
# Values that are written are read

* `writeFloat_spec` — **how a float is written**: with a point, and with digits that are read as the float;
* `decimal?_fraction`, `decimal?_integer`, `number?_whole` — how such digits are read;
* `moment?_digits` — they are not taken for a date;
* `value?_writeFloat`, `value?_toString`, `value?_write` — **a value that is written is read**, at the end of
  its line.
-/

namespace SynthControl.Toml

open Decimal

/-! ### Kinds of characters -/

section

variable {kind : Char → Bool} {c d : Char}

/-- Characters are different if only one of them is of a kind. -/
theorem ne_of_kind (hc : kind c = true) (hd : kind d = false) : c ≠ d := by
  rintro rfl
  rw [hc] at hd
  cases hd

theorem ofChar?_of_kind (hc : kind c = true) (hdouble : kind Quote.double.mark = false)
    (hsingle : kind Quote.single.mark = false) : Quote.ofChar? c = none := by
  rw [Quote.ofChar?, if_neg (ne_of_kind hc hdouble), if_neg (ne_of_kind hc hsingle)]

theorem isBlank_of_kind (hc : kind c = true) (hspace : kind ' ' = false) (htab : kind '\t' = false) :
    isBlank c = false := by
  rw [isBlank, beq_eq_false_iff_ne.2 (ne_of_kind hc hspace), beq_eq_false_iff_ne.2 (ne_of_kind hc htab), Bool.or_false]

theorem skipBlanks_cons (hc : isBlank c = false) (r : List Char) : skipBlanks (c :: r) = c :: r :=
  List.dropWhile_cons_of_neg (by rw [hc]; decide)

end

/-! ### How numbers are written -/

/-- A sign that was written is taken again. -/
theorem takeSign_sign (negative : Bool) {ds : List Char} (hd : IsWhole ds) (rest : List Char) :
    takeSign (sign negative ++ (ds ++ rest)) = (negative, ds ++ rest) := by
  cases negative with
  | true => rfl
  | false =>
    refine takeSign_of_signed (.none _) fun c r hc => ?_
    cases hd with
    | zero =>
      cases hc
      decide
    | digits _ hd =>
      cases hc
      exact ne_sign_of_isDigit (hd _ List.mem_cons_self)

/-- Digits with a sign have no point. -/
theorem contains_point_eq_false (negative : Bool) {ds : List Char} (hd : IsDigits ds) :
    (sign negative ++ ds).contains '.' = false := by
  rw [List.contains_eq_any_beq, List.any_eq_false]
  intro c hc hpoint
  rw [← eq_of_beq hpoint] at hc
  rcases List.mem_append.1 hc with hc | hc
  · cases negative <;> simp [sign] at hc
  · exact absurd (hd _ hc) (by decide)

/-- Digits without a point get one, and a zero. -/
theorem toFloat_point (negative : Bool) (whole : List Char) :
    Numeral.toFloat negative ⟨whole, ['0'], 0⟩ = ofScientific negative (ofDigits whole * 10) (-1) := by
  rw [Numeral.toFloat, ofDigits_eq_ofDigitChars, Nat.ofDigitChars_append, ← ofDigits_eq_ofDigitChars, Nat.mul_comm]
  rfl

/-- **How a finite float is written**: a sign, digits, a point and digits, which are read as the float. -/
theorem writeFloat_spec {x : Float} {negative : Bool} {m : Nat} {q : Int}
    (h : Binary64.ofFloat x = .finite negative m q) :
    ∃ whole fraction, writeFloat x = sign negative ++ (whole ++ '.' :: fraction) ∧ IsWhole whole ∧ IsDigits fraction ∧
      fraction ≠ [] ∧ Numeral.toFloat negative ⟨whole, fraction, 0⟩ = x := by
  have hspells := spells_ofFloat x
  rw [h] at hspells
  obtain ⟨hq, hx⟩ : Normalised m q ∧ assemble negative m q = x := by
    cases hspells with
    | finite hq hx _ => exact ⟨hq, hx⟩
  rw [writeFloat, Decimal.text, h]
  dsimp only
  rcases Nat.eq_zero_or_pos m with rfl | hm
  · -- zero
    obtain rfl := hq.full.resolve_left (by decide)
    rw [if_pos rfl, String.toList_ofList, contains_point_eq_false negative (by simp [IsDigits]), if_neg (by decide)]
    refine ⟨['0'], ['0'], by simp, .zero, by simp [IsDigits], by decide, ?_⟩
    rw [← hx, toFloat_point]
    rfl
  · have howns := Interval.shortest_owns hm hq
    rw [if_neg hm.ne', ← dropZeros_value 20] at *
    generalize dropZeros 20 (Interval.ofFinite m q).shortest.1 (Interval.ofFinite m q).shortest.2 = digits at howns ⊢
    obtain ⟨c, p⟩ := digits
    dsimp only at howns ⊢
    have hc : 0 < c := by
      refine Nat.pos_of_ne_zero fun hzero => ?_
      have hpos := howns.pos hm
      rw [hzero, Nat.cast_zero, zero_mul] at hpos
      exact lt_irrefl _ hpos
    rw [String.toList_ofList]
    rcases lt_or_ge p 0 with hp | hp
    · -- the point is there
      obtain ⟨whole, fraction, hpositional, hwhole, hfraction, hplaces, hvalue⟩ := positional_of_neg hc hp
      rw [hpositional, if_pos (by simp)]
      refine ⟨whole, fraction, rfl, hwhole, hfraction, ?_, ?_⟩
      · rintro rfl
        rw [List.length_nil] at hplaces
        omega
      · rw [← hx, ← ofScientific_of_owns negative hm hq howns, Numeral.toFloat, hvalue]
        dsimp only
        rw [hplaces, zero_sub, neg_neg]
    · -- the point is missing, and a zero is written behind it
      obtain ⟨hwhole, hvalue⟩ := positional_of_nonneg hc hp
      rw [contains_point_eq_false negative hwhole.isDigits, if_neg (by decide)]
      refine ⟨positional c p, ['0'], by simp, hwhole, by simp [IsDigits], by decide, ?_⟩
      rw [toFloat_point, ← hx]
      refine ofScientific_of_owns negative hm hq ?_
      rw [← hvalue] at howns
      push_cast
      rwa [zpow_neg_one, mul_inv_cancel_right₀ (by norm_num)]

/-! ### How numbers are read -/

section

variable {negative : Bool} {ds whole fraction : List Char} {r : List Char}

/-- Digits are all taken, up to what is none. -/
theorem takeGrouped_digits (hd : IsDigits ds) {c : Char} (hc : c.isDigit = false) (hmark : c ≠ '_') (r : List Char) :
    takeGrouped Char.isDigit (ds ++ c :: r) = (ds, c :: r) := by
  induction ds with
  | nil =>
    rw [List.nil_append, takeGrouped]
    · rw [hc]
      rfl
    · rintro d r' hunder -
      exact hmark hunder
  | cons d ds ih =>
    have hdigit := hd d List.mem_cons_self
    rw [List.cons_append, takeGrouped]
    · rw [hdigit, if_pos rfl, ih fun x hx => hd x (List.mem_cons_of_mem _ hx)]
    · rintro e r' rfl -
      exact absurd hdigit (by decide)

theorem grouped?_digits (hd : IsDigits ds) (hne : ds ≠ []) {c : Char} (hc : c.isDigit = false) (hmark : c ≠ '_')
    (r : List Char) : grouped? Char.isDigit (ds ++ c :: r) = some (ds, c :: r) := by
  obtain ⟨d, ds, rfl⟩ := List.exists_cons_of_ne_nil hne
  rw [List.cons_append, grouped?, if_pos (hd d List.mem_cons_self),
    takeGrouped_digits (fun x hx => hd x (List.mem_cons_of_mem _ hx)) hc hmark]

theorem whole?_whole (hd : IsWhole ds) {c : Char} (hc : c.isDigit = false) (hmark : c ≠ '_') (r : List Char) :
    whole? (ds ++ c :: r) = some (ds, c :: r) := by
  cases hd with
  | zero => rfl
  | @digits d ds hzero hd =>
    rw [List.cons_append, whole?]
    · exact grouped?_digits hd (by simp) hc hmark r
    · exact fun r' hcons => hzero (List.cons.inj hcons).1

/-- A number with a fraction is read as a float. -/
theorem decimal?_fraction (hw : IsWhole whole) (hf : IsDigits fraction) (hne : fraction ≠ []) (r : List Char) :
    decimal? negative (whole ++ '.' :: (fraction ++ '\n' :: r)) =
      (finite? negative ⟨whole, fraction, 0⟩).map fun v => (v, '\n' :: r) := by
  have hfraction : fraction? ('.' :: (fraction ++ '\n' :: r)) = some (some fraction, '\n' :: r) := by
    rw [fraction?, grouped?_digits hf hne (by decide) (by decide)]
    rfl
  have hpower : power? ('\n' :: r) = some (none, '\n' :: r) := rfl
  simp only [decimal?, whole?_whole hw (show Char.isDigit '.' = false by decide) (by decide), hfraction, hpower,
    Option.bind_eq_bind, Option.bind_some]
  exact (if_neg (by simp)).trans Option.map_eq_bind.symm

/-- A number without a fraction is read as an integer. -/
theorem decimal?_integer (hw : IsWhole whole) (r : List Char) :
    decimal? negative (whole ++ '\n' :: r) =
      (integer? (if negative then -(ofDigits whole : Int) else ofDigits whole)).map fun v => (v, '\n' :: r) := by
  have hfraction : fraction? ('\n' :: r) = some (none, '\n' :: r) := rfl
  have hpower : power? ('\n' :: r) = some (none, '\n' :: r) := rfl
  simp only [decimal?, whole?_whole hw (show Char.isDigit '\n' = false by decide) (by decide), hfraction, hpower,
    Option.bind_eq_bind, Option.bind_some]
  exact (if_pos rfl).trans Option.map_eq_bind.symm

/-- No digit begins the name of a special float. -/
theorem special?_digit {c : Char} (hc : c.isDigit = true) (r : List Char) : special? negative (c :: r) = none := by
  rw [special?]
  all_goals
    intro r' hname
    exact ne_of_kind hc (by decide) (List.cons.inj hname).1

/-- Behind its sign a number begins with a digit, and is not in another base. -/
theorem number?_whole (hw : IsWhole whole) {c : Char} (hc : baseOf? c = none) (r : List Char) :
    number? (sign negative ++ (whole ++ c :: r)) = decimal? negative (whole ++ c :: r) := by
  obtain ⟨d, ds, rfl⟩ : ∃ d ds, whole = d :: ds := by cases hw <;> exact ⟨_, _, rfl⟩
  have hd := hw.isDigits d List.mem_cons_self
  have hsigned : signed? negative (d :: ds ++ c :: r) = decimal? negative (d :: ds ++ c :: r) := by
    rw [signed?, List.cons_append, special?_digit hd, Option.none_or]
  cases negative with
  | true => exact hsigned
  | false =>
    have hplain : takeSign (d :: ds ++ c :: r) = (false, d :: ds ++ c :: r) := takeSign_sign false hw (c :: r)
    cases hw with
    | zero =>
      show number? ('0' :: c :: r) = _
      rw [number?, hc]
      rfl
    | digits hzero _ =>
      show number? (d :: ds ++ c :: r) = _
      rw [number?, hplain]
      · exact hsigned
      · intro e r' hcons
        exact absurd (List.cons.inj hcons).1 hzero

/-- After some of the digits there are the others. -/
theorem digits?_digits (hd : IsDigits ds) {c : Char} (hc : c.isDigit = false) {n v : Nat} {s : List Char}
    (h : digits? n (ds ++ c :: r) = some (v, s)) : ∃ ds', IsDigits ds' ∧ s = ds' ++ c :: r := by
  rw [digits?] at h
  split at h
  · next hall =>
    obtain ⟨-, rfl⟩ := Prod.mk.inj (Option.some.inj h)
    have hn : n ≤ ds.length := by
      by_contra hlong
      have hmem : c ∈ (ds ++ c :: r).take n := by
        rw [List.take_append, List.mem_append]
        obtain ⟨k, hk⟩ : ∃ k, n - ds.length = k + 1 := ⟨n - ds.length - 1, by omega⟩
        rw [hk, List.take_succ_cons]
        exact .inr List.mem_cons_self
      have hdigit := List.all_eq_true.1 hall.2 c hmem
      rw [hc] at hdigit
      cases hdigit
    exact ⟨ds.drop n, fun x hx => hd x (List.mem_of_mem_drop hx), List.drop_append_of_le_length hn⟩
  · cases h

/-- No mark stands behind digits but the one that follows them. -/
theorem mark?_digits (hd : IsDigits ds) {c mark : Char} (hmark : mark.isDigit = false) (hc : c ≠ mark) :
    mark? mark (ds ++ c :: r) = none := by
  cases ds with
  | nil => exact if_neg hc
  | cons d ds =>
    refine if_neg ?_
    rintro rfl
    rw [hd d List.mem_cons_self] at hmark
    cases hmark

/-- Digits are no part of a date or a time, if neither of its marks follows. -/
theorem moment?_digits (hd : IsDigits ds) {c : Char} (hc : c.isDigit = false) (hdate : c ≠ '-') (htime : c ≠ ':')
    (r : List Char) : moment? (ds ++ c :: r) = none := by
  have hnodate : date? (ds ++ c :: r) = none := by
    rw [date?]
    cases hyear : digits? 4 (ds ++ c :: r) with
    | none => rfl
    | some p =>
      obtain ⟨ds', hd', hrest⟩ := digits?_digits hd hc hyear
      rw [Option.bind_eq_bind, Option.bind_some]
      show Option.bind (mark? '-' p.2) _ = none
      rw [hrest, mark?_digits hd' (by decide) hdate]
      rfl
  have hnotime : hoursMinutes? (ds ++ c :: r) = none := by
    rw [hoursMinutes?]
    cases hhours : twoDigits? 0 23 (ds ++ c :: r) with
    | none => rfl
    | some p =>
      obtain ⟨ds', hd', hrest⟩ := digits?_digits hd hc (Option.filter_eq_some_iff.1 hhours).1
      rw [Option.bind_eq_bind, Option.bind_some]
      show Option.bind (mark? ':' p.2) _ = none
      rw [hrest, mark?_digits hd' (by decide) htime]
      rfl
  rw [moment?, skipMoment?, hnodate, time?, hnotime]
  rfl

/-- A date or a time begins with a digit. -/
theorem moment?_head {c : Char} (hc : c.isDigit = false) (r : List Char) : moment? (c :: r) = none := by
  have hdigits : ∀ n, digits? (n + 1) (c :: r) = none := fun n => if_neg fun h => by
    rw [List.take_succ_cons, List.all_cons, hc] at h
    cases h.2
  rw [moment?, skipMoment?, date?, time?, hoursMinutes?, twoDigits?, hdigits, hdigits]
  rfl

end

/-! ### Values -/

section

variable {negative : Bool} {whole : List Char} {c : Char} {r : List Char}

/-- A character that a number begins with. -/
def startsNumber (c : Char) : Bool := c.isDigit || c == '-' || c == 'n' || c == 'i'

/-- What begins like a number and is no date is read as a number. -/
theorem value?_number (hc : startsNumber c = true) (hm : moment? (c :: r) = none) :
    value? (c :: r) = number? (c :: r) := by
  have hquote : Quote.ofChar? c = none := ofChar?_of_kind hc (by decide) (by decide)
  have hbracket : c ≠ '[' := ne_of_kind hc (by decide)
  have hbrace : c ≠ '\x7b' := ne_of_kind hc (by decide)
  show valueTo? (78 + 1) (c :: r) = _
  rw [valueTo?, hquote]
  dsimp only
  rw [if_neg hbracket, if_neg hbrace, scalar?, hm]
  · rfl
  · intro r' hcons
    exact ne_of_kind hc (by decide) (List.cons.inj hcons).1
  · intro r' hcons
    exact ne_of_kind hc (by decide) (List.cons.inj hcons).1

/-- A number with a sign and an integral part is read as one. -/
theorem value?_whole (hw : IsWhole whole) (hc : c = '.' ∨ c = '\n') :
    value? (sign negative ++ (whole ++ c :: r)) = decimal? negative (whole ++ c :: r) := by
  have hbase : baseOf? c = none := by rcases hc with rfl | rfl <;> rfl
  have hmoment : moment? (whole ++ c :: r) = none := by
    rcases hc with rfl | rfl <;> exact moment?_digits hw.isDigits (by decide) (by decide) (by decide) r
  rw [← number?_whole hw hbase]
  cases negative with
  | true => exact value?_number (by decide) (moment?_head (by decide) _)
  | false =>
    obtain ⟨d, ds, rfl⟩ : ∃ d ds, whole = d :: ds := by cases hw <;> exact ⟨_, _, rfl⟩
    have hstart : startsNumber d = true := by simp [startsNumber, hw.isDigits d List.mem_cons_self]
    exact value?_number hstart hmoment

end

/-- How an integer is written: a sign and digits. -/
theorem toList_toString_int (n : Int) : (toString n).toList = sign (n < 0) ++ Nat.toDigits 10 n.natAbs := by
  cases n with
  | ofNat n => exact Nat.toList_repr
  | negSucc n =>
    show ("-" ++ Nat.repr (n + 1)).toList = _
    rw [String.toList_append, Nat.toList_repr, Int.natAbs_negSucc, decide_eq_true (Int.negSucc_lt_zero n)]
    simp [sign]

/-- **A float that is written is read.** -/
theorem value?_writeFloat (x : Float) (r : List Char) :
    value? (writeFloat x ++ '\n' :: r) = some (.float x, '\n' :: r) := by
  have hspells := spells_ofFloat x
  cases hx : Binary64.ofFloat x with
  | nan =>
    rw [hx] at hspells
    cases hspells with
    | nan h =>
      rw [writeFloat, hx]
      show value? ('n' :: 'a' :: 'n' :: '\n' :: r) = _
      rw [value?_number (by decide) (moment?_head (by decide) _), h]
      rfl
  | infinite negative =>
    rw [hx] at hspells
    cases hspells with
    | infinite h =>
      rw [writeFloat, hx, ← h]
      cases negative with
      | true =>
        show value? ('-' :: 'i' :: 'n' :: 'f' :: '\n' :: r) = _
        rw [value?_number (by decide) (moment?_head (by decide) _)]
        rfl
      | false =>
        show value? ('i' :: 'n' :: 'f' :: '\n' :: r) = _
        rw [value?_number (by decide) (moment?_head (by decide) _)]
        rfl
  | finite negative m q =>
    obtain ⟨whole, fraction, hwritten, hwhole, hfraction, hne, hread⟩ := writeFloat_spec hx
    rw [hx] at hspells
    cases hspells with
    | finite hq h hfinite =>
      rw [hwritten, List.append_assoc, List.append_assoc, List.cons_append, value?_whole hwhole (.inl rfl),
        decimal?_fraction hwhole hfraction hne, finite?, hread, if_neg hfinite]
      rfl

/-- **An integer of 64 bits that is written is read.** -/
theorem value?_toString {n : Int} (hn : isLong n = true) (r : List Char) :
    value? ((toString n).toList ++ '\n' :: r) = some (.integer n, '\n' :: r) := by
  have hvalue : (if decide (n < 0) = true then -(n.natAbs : Int) else n.natAbs) = n := by
    split <;> rename_i h <;> simp at h <;> omega
  rw [toList_toString_int, List.append_assoc, value?_whole (isWhole_toDigits _) (.inr rfl),
    decimal?_integer (isWhole_toDigits _), ofDigits_toDigits, hvalue, integer?, if_pos hn]
  rfl

/-- **A value that is written is read.** -/
theorem value?_write {v : Node} {s : List Char} (h : v.write? = some s) (r : List Char) :
    value? (s ++ '\n' :: r) = some (v, '\n' :: r) := by
  cases v with
  | integer n =>
    rw [Node.write?] at h
    split at h
    · next hn =>
      obtain rfl := Option.some.inj h
      exact value?_toString hn r
    · cases h
  | float x =>
    obtain rfl := Option.some.inj h
    exact value?_writeFloat x r
  | boolean b =>
    obtain rfl := Option.some.inj h
    cases b <;> rfl
  | text | moment | array | table | tables => cases h

/-- A number does not begin with a blank. -/
theorem skipBlanks_whole {whole : List Char} (hw : IsWhole whole) (negative : Bool) (r : List Char) :
    skipBlanks (sign negative ++ (whole ++ r)) = sign negative ++ (whole ++ r) := by
  cases negative with
  | true => rfl
  | false =>
    obtain ⟨d, ds, rfl⟩ : ∃ d ds, whole = d :: ds := by cases hw <;> exact ⟨_, _, rfl⟩
    exact skipBlanks_cons (isBlank_of_kind (hw.isDigits d List.mem_cons_self) (by decide) (by decide)) _

/-- What is written of a value does not begin with a blank. -/
theorem skipBlanks_write {v : Node} {s : List Char} (h : v.write? = some s) (r : List Char) :
    skipBlanks (s ++ r) = s ++ r := by
  cases v with
  | integer n =>
    rw [Node.write?] at h
    split at h
    · obtain rfl := Option.some.inj h
      rw [toList_toString_int, List.append_assoc]
      exact skipBlanks_whole (isWhole_toDigits _) _ r
    · cases h
  | float x =>
    obtain rfl := Option.some.inj h
    cases hx : Binary64.ofFloat x with
    | nan =>
      rw [writeFloat, hx]
      rfl
    | infinite negative =>
      rw [writeFloat, hx]
      cases negative <;> rfl
    | finite negative m q =>
      obtain ⟨whole, fraction, hwritten, hwhole, -⟩ := writeFloat_spec hx
      rw [hwritten, List.append_assoc, List.append_assoc]
      exact skipBlanks_whole hwhole _ _
  | boolean b =>
    obtain rfl := Option.some.inj h
    cases b <;> rfl
  | text | moment | array | table | tables => cases h

end SynthControl.Toml
