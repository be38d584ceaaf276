import SynthControl.Proofs.Numerals
import SynthControl.Sine.Call

/-!
# Which options are accepted

The forms of an option are tried one after another, and some of them begin alike.  What is accepted in the end, and
what it changes, is said form by form and without an order.

* `Quantity.leads` — how the options for a positive parameter begin;
* `Sine.Accepts` — the options that are accepted, and what each of them makes of the engine: one rule for each form;
* `Sine.accepts_of_read`, `Sine.read_of_accepts` — **what is read from an option is what its form says**;
* `Sine.option_accepted_iff` — **an option is accepted exactly if it is of one of the forms**, and during a
  performance if it is one for the duration.
-/

namespace SynthControl

open Decimal

/-- How the options for a positive parameter begin. -/
def Quantity.leads : Quantity → List String
  | sampleRate => ["--sample-rate=", "-r"]
  | blockFrames => ["--ksmps=", "-k"]
  | outputs => ["--nchnls="]
  | hardwareFrames => ["-B"]
  | softwareFrames => ["-b"]

namespace Sine

/-- What an option without blanks around it makes of an engine. -/
inductive Accepts (s : Sine) : List Char → Sine → Prop where
  | quantity {what : Quantity} {lead : String} {v : List Char} {n : Int} (hl : lead ∈ what.leads) (hv : IsWord v n)
      (hn : 0 < n) : Accepts s (lead.toList ++ v) { s with settings := setQuantity s.settings n what }
  | inputs {v : List Char} {n : Int} (hv : IsWord v n) :
      Accepts s ("--nchnls_i=".toList ++ v) { s with settings.inputs := n, wantsInput := 0 < n }
  | realtime : Accepts s "-odac".toList { s with output := none }
  | output {lead : String} {path : List Char} (hl : lead ∈ ["--output=", "-o"]) (hp : path ≠ [])
      (hd : lead.toList ++ path ≠ "-odac".toList) :
      Accepts s (lead.toList ++ path) { s with output := some (String.ofList path) }
  | audioInput :
      Accepts s "-iadc".toList { s with settings.inputs := max s.settings.inputs 1, wantsInput := true }
  | midi (rest : List Char) : Accepts s ("-M".toList ++ rest) { s with wantsMidi := true }
  | duration {v : List Char} {x : Float} (hv : IsFloat v x) (hx : ¬x < 0) :
      Accepts s ("--duration=".toList ++ v) { s with duration := some x }

/-! ### Parameters -/

theorem readPositive_eq_ok_iff {what : Quantity} {v : List Char} {c : Change} :
    readPositive what v = .ok c ↔ ∃ n, IsWord v n ∧ 0 < n ∧ c = .quantity what n := by
  rw [readPositive]
  constructor
  · intro h
    split at h
    · next n hv =>
      split at h
      · next hn =>
        cases h
        exact ⟨n, readWord?_eq_some_iff.1 hv, hn, rfl⟩
      · cases h
    · cases h
  · rintro ⟨n, hv, hn, rfl⟩
    rw [readWord?_eq_some_iff.2 hv]
    exact if_pos hn

theorem readInputs_eq_ok_iff {v : List Char} {c : Change} :
    readInputs v = .ok c ↔ ∃ n, IsWord v n ∧ c = .inputs n := by
  rw [readInputs]
  constructor
  · intro h
    split at h
    · next n hv =>
      cases h
      exact ⟨n, readWord?_eq_some_iff.1 hv, rfl⟩
    · cases h
  · rintro ⟨n, hv, rfl⟩
    rw [readWord?_eq_some_iff.2 hv]

theorem readOutput_eq_ok_iff {v : List Char} {c : Change} :
    readOutput v = .ok c ↔ v ≠ [] ∧ c = .output (String.ofList v) := by
  cases v <;> simp [readOutput, eq_comm]

theorem readDuration_eq_ok_iff {v : List Char} {c : Change} :
    readDuration v = .ok c ↔ ∃ x, IsFloat v x ∧ ¬x < 0 ∧ c = .duration x := by
  rw [readDuration]
  constructor
  · intro h
    split at h
    · cases h
    · next x hv =>
      split at h
      · cases h
      · next hx =>
        cases h
        exact ⟨x, readFloat?_eq_some_iff.1 hv, hx, rfl⟩
  · rintro ⟨x, hv, hx, rfl⟩
    rw [readFloat?_eq_some_iff.2 hv]
    exact if_neg hx

/-! ### Forms -/

/-- A form fits an option in one way only. -/
theorem Form.read?_takes_eq_some_iff {lead : String} {read : List Char → Except OptionError Change} {o : List Char}
    {r : Except OptionError Change} :
    (takes lead read).read? o = some r ↔ ∃ v, o = lead.toList ++ v ∧ read v = r := by
  simp only [read?, Option.map_eq_some_iff, Text.after?_eq_some_iff]

theorem Form.read?_ignores_eq_some_iff {lead : String} {change : Change} {o : List Char}
    {r : Except OptionError Change} :
    (ignores lead change).read? o = some r ↔ ∃ v, o = lead.toList ++ v ∧ .ok change = r := by
  simp only [read?, Option.map_eq_some_iff, Text.after?_eq_some_iff]

/-- **What is read from an option is what its form says.** -/
theorem accepts_of_read (s : Sine) {o : List Char} {c : Change} (h : Change.read o = .ok c) :
    s.Accepts o (s.apply c) := by
  have hread := h
  rw [Change.read] at h
  cases hf : forms.findSome? (Form.read? o) with
  | none =>
    rw [hf] at h
    cases h
  | some r =>
    rw [hf] at h
    obtain rfl : r = .ok c := h
    obtain ⟨f, hmem, hfits⟩ := List.exists_of_findSome?_eq_some hf
    clear hf
    have hquantity : ∀ {what : Quantity} {lead : String}, lead ∈ what.leads →
        (Form.takes lead (readPositive what)).read? o = some (.ok c) → s.Accepts o (s.apply c) := by
      intro what lead hl hr
      obtain ⟨v, rfl, hv⟩ := Form.read?_takes_eq_some_iff.1 hr
      obtain ⟨n, hword, hn, rfl⟩ := readPositive_eq_ok_iff.1 hv
      exact .quantity hl hword hn
    have houtput : ∀ {lead : String}, lead ∈ ["--output=", "-o"] →
        (Form.takes lead readOutput).read? o = some (.ok c) → s.Accepts o (s.apply c) := by
      intro lead hl hr
      obtain ⟨v, rfl, hv⟩ := Form.read?_takes_eq_some_iff.1 hr
      obtain ⟨hp, rfl⟩ := readOutput_eq_ok_iff.1 hv
      refine .output hl hp fun hodac => ?_
      rw [hodac] at hread
      cases hread
    simp only [forms, List.mem_cons, List.not_mem_nil, or_false] at hmem
    rcases hmem with rfl | rfl | rfl | rfl | rfl | rfl | rfl | rfl | rfl | rfl | rfl | rfl | rfl | rfl
    · exact hquantity (by decide) hfits
    · exact hquantity (by decide) hfits
    · exact hquantity (by decide) hfits
    · exact hquantity (by decide) hfits
    · obtain ⟨v, rfl, hv⟩ := Form.read?_takes_eq_some_iff.1 hfits
      obtain ⟨n, hword, rfl⟩ := readInputs_eq_ok_iff.1 hv
      exact .inputs hword
    · exact hquantity (by decide) hfits
    · exact hquantity (by decide) hfits
    · exact hquantity (by decide) hfits
    · rw [Form.read?] at hfits
      split at hfits
      · next ho =>
        cases hfits
        exact ho ▸ .realtime
      · cases hfits
    · exact houtput (by decide) hfits
    · exact houtput (by decide) hfits
    · rw [Form.read?] at hfits
      split at hfits
      · next ho =>
        cases hfits
        exact ho ▸ .audioInput
      · cases hfits
    · obtain ⟨v, rfl, hv⟩ := Form.read?_ignores_eq_some_iff.1 hfits
      cases hv
      exact .midi v
    · obtain ⟨v, rfl, hv⟩ := Form.read?_takes_eq_some_iff.1 hfits
      obtain ⟨x, hfloat, hx, rfl⟩ := readDuration_eq_ok_iff.1 hv
      exact .duration hfloat hx

/-- An option for a positive parameter is read as one: no form that is tried before begins like it. -/
theorem read_quantity {what : Quantity} {lead : String} (hl : lead ∈ what.leads) (v : List Char) :
    Change.read (lead.toList ++ v) = readPositive what v := by
  cases what <;> simp only [Quantity.leads, List.mem_cons, List.not_mem_nil, or_false] at hl
  · rcases hl with rfl | rfl <;> rfl
  · rcases hl with rfl | rfl <;> rfl
  · subst hl
    rfl
  · subst hl
    rfl
  · subst hl
    rfl

/-- An option for an output file is read as one, unless it is the one for realtime output. -/
theorem read_output {lead : String} (hl : lead ∈ ["--output=", "-o"]) {path : List Char}
    (hd : lead.toList ++ path ≠ "-odac".toList) : Change.read (lead.toList ++ path) = readOutput path := by
  simp only [List.mem_cons, List.not_mem_nil, or_false] at hl
  rcases hl with rfl | rfl
  · rfl
  · have hplain : (Form.plain "-odac" .realtime).read? ("-o".toList ++ path) = none := if_neg hd
    -- of the forms that are tried before, only the one for realtime output could fit
    have hbefore : (forms.take 10).findSome? (Form.read? ("-o".toList ++ path)) = none := by
      rw [List.findSome?_eq_none_iff]
      simp only [forms, List.take_succ_cons, List.take_zero, List.forall_mem_cons, List.not_mem_nil, false_implies,
        implies_true, and_true]
      exact ⟨rfl, rfl, rfl, rfl, rfl, rfl, rfl, rfl, hplain, rfl⟩
    rw [Change.read, ← List.take_append_drop 10 forms, List.findSome?_append, hbefore]
    rfl

/-- **What is accepted is read from the option.** -/
theorem read_of_accepts {s s' : Sine} {o : List Char} (h : s.Accepts o s') :
    ∃ c, Change.read o = .ok c ∧ s' = s.apply c := by
  cases h with
  | @quantity what lead v n hl hv hn =>
    exact ⟨.quantity what n, (read_quantity hl v).trans (readPositive_eq_ok_iff.2 ⟨n, hv, hn, rfl⟩), rfl⟩
  | @inputs v n hv => exact ⟨.inputs n, readInputs_eq_ok_iff.2 ⟨n, hv, rfl⟩, rfl⟩
  | realtime => exact ⟨.realtime, rfl, rfl⟩
  | @output lead path hl hp hd =>
    exact ⟨.output (String.ofList path), (read_output hl hd).trans (readOutput_eq_ok_iff.2 ⟨hp, rfl⟩), rfl⟩
  | audioInput => exact ⟨.audioInput, rfl, rfl⟩
  | midi rest => exact ⟨.midi, rfl, rfl⟩
  | @duration v x hv hx => exact ⟨.duration x, readDuration_eq_ok_iff.2 ⟨x, hv, hx, rfl⟩, rfl⟩

end Sine
end SynthControl
