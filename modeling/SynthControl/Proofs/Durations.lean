import SynthControl.CommandLine.Performance
import SynthControl.Proofs.Options
import SynthControl.Proofs.Shortest

/-!
# The options that the commands set

A command writes its duration into an option, and the engine reads it again.  Whatever float it is, the engine
reads the same float, so that the option is rejected exactly if the duration is below zero; the option for the
rendered file is always accepted.

* `Decimal.isFloat_text`, `readFloat?_text` — **the text of a float is read as that float**, also an infinity and
  what is no number;
* `IsFloat.not_blank`, `Text.trim_of_not_blank` — no float has blanks, so that trimming leaves an option as it is;
* `Sine.readOption_durationText`, `readOption_target` — **what the engine reads from the options of the commands**.
-/

namespace SynthControl

namespace Decimal

/-! ### The text of a float -/

theorem signed_sign (negative : Bool) (r : List Char) : Signed negative r (sign negative ++ r) := by
  cases negative with
  | true => exact .minus r
  | false => exact .none r

/-- Digits without a point are a numeral. -/
theorem isNumeral_whole {ds : List Char} (hd : IsWhole ds) : IsNumeral ds ⟨ds, [], 0⟩ := by
  have hne : ds ≠ [] := by cases hd <;> simp
  have h := IsNumeral.parts (n := ⟨ds, [], 0⟩) hd.isDigits .absent .absent (.inl hne)
  rwa [List.append_nil, List.append_nil] at h

/-- Digits, a point and digits are a numeral. -/
theorem isNumeral_point {whole fraction : List Char} (hw : IsWhole whole) (hf : IsDigits fraction) :
    IsNumeral (whole ++ '.' :: fraction) ⟨whole, fraction, 0⟩ := by
  have hne : whole ≠ [] := by cases hw <;> simp
  have h := IsNumeral.parts (n := ⟨whole, fraction, 0⟩) hw.isDigits (.written hf) .absent (.inl hne)
  rwa [List.append_nil] at h

/-- Digits that a float owns are read as that float. -/
theorem isFloat_positional (negative : Bool) {m c : Nat} {q p : Int} (hm : 0 < m) (hq : Normalised m q)
    (howns : Owns m q (c * 10 ^ p)) :
    IsFloat (sign negative ++ positional c p) (assemble negative m q) := by
  have hc : 0 < c := by
    refine Nat.pos_of_ne_zero fun hzero => ?_
    have hpos := howns.pos hm
    rw [hzero, Nat.cast_zero, zero_mul] at hpos
    exact lt_irrefl _ hpos
  rcases lt_or_ge p 0 with hp | hp
  · obtain ⟨whole, fraction, hpositional, hwhole, hfraction, hplaces, hvalue⟩ := positional_of_neg hc hp
    have hread : Numeral.toFloat negative ⟨whole, fraction, 0⟩ = assemble negative m q := by
      rw [← ofScientific_of_owns negative hm hq howns, Numeral.toFloat, hvalue]
      dsimp only
      rw [hplaces, zero_sub, neg_neg]
    rw [hpositional, ← hread]
    exact .numeral (signed_sign _ _) (isNumeral_point hwhole hfraction)
  · obtain ⟨hwhole, hvalue⟩ := positional_of_nonneg hc hp
    have hread : Numeral.toFloat negative ⟨positional c p, [], 0⟩ = assemble negative m q := by
      rw [Numeral.toFloat, List.append_nil]
      refine ofScientific_of_owns negative hm hq ?_
      rw [hvalue]
      simpa using howns
    rw [← hread]
    exact .numeral (signed_sign _ _) (isNumeral_whole hwhole)

/-- **The text of a float is read as that float.** -/
theorem isFloat_text (x : Float) : IsFloat (text x).toList x := by
  have hspells := spells_ofFloat x
  rw [text]
  cases hx : Binary64.ofFloat x with
  | nan =>
    rw [hx] at hspells
    cases hspells with
    | nan h =>
      rw [h]
      exact .nan (.none _) (by decide)
  | infinite negative =>
    rw [hx] at hspells
    cases hspells with
    | infinite h =>
      rw [← h]
      dsimp only
      rw [String.toList_ofList]
      exact .infinity (signed_sign _ _) (.inl (by decide))
  | finite negative m q =>
    rw [hx] at hspells
    cases hspells with
    | finite hq h _ =>
      rw [← h]
      dsimp only
      rcases Nat.eq_zero_or_pos m with rfl | hm
      · -- zero is written as such, and has the smallest exponent
        obtain rfl := hq.full.resolve_left (by decide)
        rw [if_pos rfl, String.toList_ofList]
        exact .numeral (signed_sign _ _) (isNumeral_whole .zero)
      · rw [if_neg hm.ne', String.toList_ofList]
        refine isFloat_positional negative hm hq ?_
        rw [dropZeros_value]
        exact Interval.shortest_owns hm hq

theorem readFloat?_text (x : Float) : readFloat? (text x).toList = some x := readFloat?_eq_some_iff.2 (isFloat_text x)

/-! ### No blanks -/

theorem isBlank_of_isDigit {c : Char} (h : c.isDigit = true) : Text.isBlank c = false := by
  have hrange : 48 ≤ c.toNat ∧ c.toNat ≤ 57 := Char.isDigit_iff_toNat.1 h
  rw [Text.isBlank, ← Bool.not_eq_true]
  simp only [Bool.or_eq_true, Bool.and_eq_true, decide_eq_true_eq, beq_iff_eq]
  omega

/-- A blank has no other form in lower case. -/
theorem toLower_of_isBlank {c : Char} (h : Text.isBlank c = true) : c.toLower = c := by
  rw [Text.isBlank] at h
  simp only [Bool.or_eq_true, Bool.and_eq_true, decide_eq_true_eq, beq_iff_eq] at h
  delta Char.toLower
  split
  · next hu =>
    have hlow : 65 ≤ c.toNat := UInt32.le_iff_toNat_le.1 hu.1
    have hhigh : c.toNat ≤ 90 := UInt32.le_iff_toNat_le.1 hu.2
    omega
  · rfl

section

variable {r s t : List Char}

theorem IsDigits.not_blank (h : IsDigits s) : ∀ c ∈ s, Text.isBlank c = false :=
  fun c hc => isBlank_of_isDigit (h c hc)

theorem Signed.not_blank {negative : Bool} (h : Signed negative r s) (hr : ∀ c ∈ r, Text.isBlank c = false) :
    ∀ c ∈ s, Text.isBlank c = false := by
  cases h with
  | none => exact hr
  | minus | plus =>
    rw [List.forall_mem_cons]
    exact ⟨by decide, hr⟩

/-- A name without blanks has none in any case. -/
theorem not_blank_of_lower (h : lower r = t) (ht : ∀ c ∈ t, Text.isBlank c = false) :
    ∀ c ∈ r, Text.isBlank c = false := by
  intro c hc
  by_contra hblank
  have hmem : c.toLower ∈ t := by
    rw [← h]
    exact List.mem_map_of_mem hc
  rw [toLower_of_isBlank (by simpa using hblank)] at hmem
  exact hblank (ht c hmem)

theorem IsInteger.not_blank {n : Int} (h : IsInteger s n) : ∀ c ∈ s, Text.isBlank c = false := by
  cases h with
  | negative hs hd _ | positive hs hd _ => exact hs.not_blank hd.not_blank

theorem IsNumeral.not_blank {n : Numeral} (h : IsNumeral s n) : ∀ c ∈ s, Text.isBlank c = false := by
  obtain ⟨hw, hf, hp, -⟩ := h
  obtain ⟨whole, fraction, exponent⟩ := n
  dsimp only at hw hf hp ⊢
  intro c hc
  rcases List.mem_append.1 hc with hc | hc
  · rcases List.mem_append.1 hc with hc | hc
    · exact hw.not_blank c hc
    · cases hf with
      | absent => cases hc
      | written hd =>
        rcases List.mem_cons.1 hc with rfl | hc
        · decide
        · exact hd.not_blank c hc
  · cases hp with
    | absent => cases hc
    | written he hi =>
      rcases List.mem_cons.1 hc with rfl | hc
      · rcases he with rfl | rfl <;> decide
      · exact hi.not_blank c hc

/-- The text of a float has no blanks. -/
theorem IsFloat.not_blank {x : Float} (h : IsFloat s x) : ∀ c ∈ s, Text.isBlank c = false := by
  cases h with
  | infinity hs hr =>
    refine hs.not_blank ?_
    rcases hr with hr | hr <;> exact not_blank_of_lower hr (by simp [Text.isBlank])
  | nan hs hr => exact hs.not_blank (not_blank_of_lower hr (by simp [Text.isBlank]))
  | numeral hs hn => exact hs.not_blank hn.not_blank

end

end Decimal

/-- A text without blanks has none around it. -/
theorem Text.trim_of_not_blank {s : List Char} (h : ∀ c ∈ s, isBlank c = false) : trim s = s := by
  have hdrop : ∀ t : List Char, (∀ c ∈ t, isBlank c = false) → t.dropWhile isBlank = t := by
    intro t ht
    cases t with
    | nil => rfl
    | cons c t => rw [List.dropWhile_cons_of_neg (by rw [ht c List.mem_cons_self]; decide)]
  have hleft : trimLeft s = s := hdrop s h
  rw [trim, hleft, trimRight, hdrop _ fun c hc => h c (List.mem_reverse.1 hc), List.reverse_reverse]

namespace Sine

/-- The duration that the engine reads from the option for it is the one that was written. -/
theorem readOption_durationText (s : Sine) (d : Float) :
    s.readOption ("--duration=" ++ Decimal.text d) = if d < 0 then .error .negativeDuration else .ok (.duration d) := by
  have hoption : ("--duration=" ++ Decimal.text d).toList = durationLead ++ (Decimal.text d).toList := by
    rw [String.toList_append]
    rfl
  have htrim : Text.trim (durationLead ++ (Decimal.text d).toList) = durationLead ++ (Decimal.text d).toList := by
    refine Text.trim_of_not_blank fun c hc => ?_
    rcases List.mem_append.1 hc with hc | hc
    · have hlead : ∀ c ∈ "--duration=".toList, Text.isBlank c = false := by simp [Text.isBlank]
      exact hlead c hc
    · exact (Decimal.isFloat_text d).not_blank c hc
  have hlead : durationLead.isPrefixOf (durationLead ++ (Decimal.text d).toList) = true :=
    List.isPrefixOf_iff_prefix.2 (List.prefix_append _ _)
  rw [readOption, hoption, htrim]
  rw [hlead, Bool.not_true, Bool.and_false, if_neg (by decide)]
  show readDuration (Decimal.text d).toList = _
  rw [readDuration, Decimal.readFloat?_text]

/-- The option for the rendered file is read as one. -/
theorem readOption_target {s : Sine} (hs : s.performing = false) :
    s.readOption ("-o" ++ CommandLine.renderTarget) = .ok (.output CommandLine.renderTarget) := by
  rw [readOption, hs]
  rfl

end Sine
end SynthControl
