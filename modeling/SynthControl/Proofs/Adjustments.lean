import Mathlib.Data.List.Induction
import SynthControl.Config.Basic
import SynthControl.Proofs.BlockShape

/-!
# The settings that options lead to

An engine starts from the settings of a configuration, and options change them: those of its setup, those that a
caller applies, and those in documents.  A usable configuration has positive parameters, and its number of input
channels is not negative.  Options for positive parameters are checked for that; the one for the number of input
channels is not.

* `Settings.AllPositive` — what has to be positive is;
* `Sine.Tuned` — an engine, and what was asked for since it was built or reset;
* `Sine.Tuned.settings_eq` — **its settings are those of its setup with these changes made**;
* `Sine.Overdrawn` — the last change of the number of input channels makes it negative;
* `Sine.signs_kept_iff` — **the parameters stay positive**, and the number of input channels stays without a sign
  **exactly if it is not overdrawn**; what a start publishes has the same signs.
-/

namespace SynthControl

/-- Everything that has to be positive in the settings is. -/
structure Settings.AllPositive (t : Settings) : Prop extends t.IsPositive where
  hardwareFrames : 0 < t.hardwareFrames
  softwareFrames : 0 < t.softwareFrames

namespace Sine

/-! ### Changes of the settings -/

/-- Settings with a change made. -/
def tune (t : Settings) : Change → Settings
  | .quantity what n => setQuantity t n what
  | .inputs n => { t with inputs := n }
  | .audioInput => { t with inputs := max t.inputs 1 }
  | .realtime | .output _ | .midi | .duration _ => t

/-- The number of input channels is changed. -/
def Change.SetsInputs : Change → Prop
  | .inputs _ | .audioInput => True
  | _ => False

/-- The last change of the number of input channels makes it negative. -/
def Overdrawn (changes : List Change) : Prop :=
  ∃ before n after, changes = before ++ .inputs n :: after ∧ n < 0 ∧ ∀ c ∈ after, ¬c.SetsInputs

section

variable {t : Settings} {changes : List Change} {c : Change}

theorem tune_allPositive (hc : c.IsPositive) (ht : t.AllPositive) : (tune t c).AllPositive := by
  obtain ⟨⟨hrate, hframes, houtputs⟩, hhardware, hsoftware⟩ := ht
  cases c with
  | quantity what n =>
    cases what with
    | sampleRate => exact ⟨⟨hc, hframes, houtputs⟩, hhardware, hsoftware⟩
    | blockFrames => exact ⟨⟨hrate, hc, houtputs⟩, hhardware, hsoftware⟩
    | outputs => exact ⟨⟨hrate, hframes, hc⟩, hhardware, hsoftware⟩
    | hardwareFrames => exact ⟨⟨hrate, hframes, houtputs⟩, hc, hsoftware⟩
    | softwareFrames => exact ⟨⟨hrate, hframes, houtputs⟩, hhardware, hc⟩
  | inputs n | realtime | output path | audioInput | midi | duration x =>
    exact ⟨⟨hrate, hframes, houtputs⟩, hhardware, hsoftware⟩

theorem foldl_tune_allPositive (hc : ∀ c ∈ changes, c.IsPositive) (ht : t.AllPositive) :
    (changes.foldl tune t).AllPositive := by
  induction changes generalizing t with
  | nil => exact ht
  | cons c changes ih =>
    rw [List.forall_mem_cons] at hc
    exact ih hc.2 (tune_allPositive hc.1 ht)

theorem not_overdrawn_nil : ¬Overdrawn [] := by
  rintro ⟨before, n, after, h, -⟩
  simp at h

/-- A change of the number of input channels decides alone; any other leaves it as it was. -/
theorem overdrawn_concat_iff :
    Overdrawn (changes ++ [c]) ↔ (∃ n < 0, c = .inputs n) ∨ ¬c.SetsInputs ∧ Overdrawn changes := by
  constructor
  · rintro ⟨before, n, after, hsplit, hn, hafter⟩
    rcases List.eq_nil_or_concat after with rfl | ⟨after, last, rfl⟩
    · obtain ⟨-, hc⟩ := List.append_inj' hsplit rfl
      exact .inl ⟨n, hn, List.singleton_inj.1 hc⟩
    · simp only [List.concat_eq_append] at hsplit hafter
      rw [← List.cons_append, ← List.append_assoc] at hsplit
      obtain ⟨rfl, hc⟩ := List.append_inj' hsplit rfl
      obtain rfl := List.singleton_inj.1 hc
      exact .inr ⟨hafter c (by simp), before, n, after, rfl, hn, fun d hd => hafter d (List.mem_append_left _ hd)⟩
  · rintro (⟨n, hn, rfl⟩ | ⟨hc, before, n, after, rfl, hn, hafter⟩)
    · exact ⟨changes, n, [], rfl, hn, nofun⟩
    · refine ⟨before, n, after ++ [c], by simp, hn, fun d hd => ?_⟩
      rcases List.mem_append.1 hd with hd | hd
      · exact hafter d hd
      · rwa [List.mem_singleton.1 hd]

/-- **The number of input channels ends up negative exactly if it is overdrawn.** -/
theorem foldl_tune_inputs_neg_iff (ht : 0 ≤ t.inputs) : (changes.foldl tune t).inputs < 0 ↔ Overdrawn changes := by
  induction changes using List.reverseRecOn with
  | nil => exact iff_of_false (by simpa using ht) not_overdrawn_nil
  | append_singleton changes c ih =>
    rw [List.foldl_append, List.foldl_cons, List.foldl_nil, overdrawn_concat_iff]
    cases c with
    | inputs n => simp [tune, Change.SetsInputs]
    | audioInput =>
      refine iff_of_false (fun hneg => ?_) (by simp [Change.SetsInputs])
      have : 1 ≤ (tune (changes.foldl tune t) .audioInput).inputs := Int.le_max_right _ _
      omega
    | quantity what n => cases what <;> simpa [tune, setQuantity, Change.SetsInputs] using ih
    | realtime | output path | midi | duration x => simpa [tune, Change.SetsInputs] using ih

end

/-! ### An engine and its changes -/

/-- An engine that was built from a setup, and what the options that were accepted since then, or since the last
reset, have asked for: those of the setup, and those that were applied in any way and at any time. -/
inductive Tuned (setup : Setup) : List Change → Sine → Prop where
  | built {s : Sine} (h : build? setup = .ok s) : Tuned setup ((fresh setup).taken setup.options) s
  | option {changes : List Change} {s s' : Sine} {o : String} (hs : Tuned setup changes s)
      (h : s.setOption? o = .ok s') : Tuned setup (changes ++ s.taken [o]) s'
  | call {changes : List Change} {s : Sine} (hs : Tuned setup changes s) (op : Operation) (args : List Value) :
      Tuned setup (changes ++ s.taken (optionsIn args op)) (s.call op args).2
  | start {changes : List Change} {s : Sine} (hs : Tuned setup changes s) (io : Io) :
      Tuned setup changes (s.start io).2.1
  | perform {changes : List Change} {s : Sine} (hs : Tuned setup changes s) (io : Io) :
      Tuned setup changes (s.perform io).2.1
  | cleanup {changes : List Change} {s : Sine} (hs : Tuned setup changes s) (io : Io) :
      Tuned setup changes (s.cleanup io).2.1
  | drain {changes : List Change} {s : Sine} (hs : Tuned setup changes s) : Tuned setup changes s.drain.2
  | reset {changes : List Change} {s : Sine} (hs : Tuned setup changes s) :
      Tuned setup ((fresh setup).taken setup.options) s.reset.2

section

variable {s s' : Sine} {setup : Setup} {changes : List Change}

theorem apply_settings (s : Sine) (c : Change) :
    (s.apply c).settings = tune s.settings c ∧ (s.apply c).origin = s.origin := by
  cases c <;> exact ⟨rfl, rfl⟩

theorem taken_isPositive (s : Sine) (options : List String) : ∀ c ∈ s.taken options, c.IsPositive := by
  induction options with
  | nil => exact List.forall_mem_nil _
  | cons o os ih =>
    rw [taken]
    split
    · next c hread => exact List.forall_mem_cons.2 ⟨readOption_isPositive hread, ih⟩
    · exact List.forall_mem_nil _

theorem foldl_settings (s : Sine) (changes : List Change) :
    (changes.foldl apply s).settings = changes.foldl tune s.settings ∧ (changes.foldl apply s).origin = s.origin := by
  induction changes generalizing s with
  | nil => exact ⟨rfl, rfl⟩
  | cons c changes ih =>
    obtain ⟨hsettings, horigin⟩ := apply_settings s c
    obtain ⟨ihsettings, ihorigin⟩ := ih (s.apply c)
    exact ⟨ihsettings.trans (by rw [hsettings, List.foldl_cons]), ihorigin.trans horigin⟩

/-- Of the setup of an engine everything that was asked for made its settings. -/
structure Tracks (setup : Setup) (changes : List Change) (s : Sine) : Prop where
  settings_eq : s.settings = changes.foldl tune setup.settings
  origin_eq : s.origin = setup
  isPositive : ∀ c ∈ changes, c.IsPositive

theorem Tracks.congr (h : Tracks setup changes s) (hs : s.SameSetup s') : Tracks setup changes s' :=
  ⟨hs.settings_eq.trans h.settings_eq, hs.origin_eq.trans h.origin_eq, h.isPositive⟩

theorem Tracks.setOptions (h : Tracks setup changes s) (options : List String) :
    Tracks setup (changes ++ s.taken options) (s.setOptions options).1 := by
  obtain ⟨hsettings, horigin⟩ := foldl_settings s (s.taken options)
  rw [setOptions_fst]
  refine ⟨?_, horigin.trans h.origin_eq, fun c hc => ?_⟩
  · rw [hsettings, h.settings_eq, List.foldl_append]
  · rcases List.mem_append.1 hc with hc | hc
    · exact h.isPositive c hc
    · exact taken_isPositive s options c hc

theorem Tracks.build (h : build? setup = .ok s) : Tracks setup ((fresh setup).taken setup.options) s := by
  have hfresh : Tracks setup [] (fresh setup) := ⟨rfl, rfl, nofun⟩
  have hbuilt := hfresh.setOptions setup.options
  rw [build?] at h
  split at h
  · next heq =>
    cases h
    rwa [heq] at hbuilt
  · cases h

/-- A setup that an engine was built from, is one that an engine can be built from again. -/
theorem Tuned.build?_isOk (h : Tuned setup changes s) : ∃ e, build? setup = .ok e := by
  induction h with
  | built h => exact ⟨_, h⟩
  | option _ _ ih | call _ _ _ ih | start _ _ ih | perform _ _ ih | cleanup _ _ ih | drain _ ih | reset _ ih => exact ih

/-- **The settings of an engine are those of its setup with all changes made.** -/
theorem Tuned.tracks (h : Tuned setup changes s) : Tracks setup changes s := by
  induction h with
  | built h => exact .build h
  | @option changes s s' o _ h ih =>
    have hset := ih.setOptions [o]
    rw [Sine.setOptions, h] at hset
    exact hset
  | @call changes s _ op args ih =>
    exact (ih.setOptions (optionsIn args op)).congr (call_beside s args op).sameSetup
  | @start changes s _ io ih => exact ih.congr (start_sameSetup io s)
  | @perform changes s _ io ih => exact ih.congr (perform_sameSetup io s)
  | @cleanup changes s _ io ih => exact ih.congr (cleanup_sameSetup io s)
  | drain _ ih => exact ih.congr ⟨rfl, rfl, rfl⟩
  | @reset changes s hs ih =>
    obtain ⟨e, he⟩ := hs.build?_isOk
    rw [Sine.reset, ih.origin_eq, he]
    exact (Tracks.build he).congr ⟨rfl, rfl, rfl⟩

theorem publish_settings (s : Sine) (r : Region) :
    (s.publish r).get .sampleRate = s.settings.sampleRate ∧ (s.publish r).get .blockFrames = s.settings.blockFrames ∧
      (s.publish r).get .outputs = s.settings.outputs ∧ (s.publish r).get .inputs = s.settings.inputs ∧
      (s.publish r).get .hardwareFrames = s.settings.hardwareFrames ∧
      (s.publish r).get .softwareFrames = s.settings.softwareFrames := by
  refine ⟨?_, ?_, ?_, ?_, ?_, ?_⟩ <;> simp [publish, Region.get_set_other]

/-- The settings of a usable configuration are positive, but for the frames that are kept ahead. -/
theorem allPositive_of_usable {c : Config} (hc : c.fault? = none) (hb : 0 < c.engine.softwareFrames) :
    c.engine.AllPositive ∧ 0 ≤ c.engine.inputs := by
  obtain ⟨-, -, -, hrate, hframes, houtputs, -, hinputs, -, hhardware, -⟩ := Config.fault?_eq_none_iff.1 hc
  exact ⟨⟨⟨hrate, hframes, houtputs⟩, hhardware, hb⟩, hinputs⟩

/-- With other settings a usable configuration is refused for their signs if one of them is wrong. -/
theorem fault?_eq_notPositive_iff {c : Config} (hc : c.fault? = none) {t : Settings} (ht : t.AllPositive) :
    ({ c with engine := t } : Config).fault? = some .notPositive ↔ t.inputs < 0 := by
  obtain ⟨hmidi, hchannels, hframes, -⟩ := Config.fault?_eq_none_iff.1 hc
  obtain ⟨⟨hrate, hblock, houtputs⟩, hhardware, -⟩ := ht
  rw [Config.fault?]
  dsimp only
  rw [if_neg (by omega), if_neg (by omega)]
  split
  · exact iff_of_true rfl (by omega)
  · refine iff_of_false ?_ (by omega)
    split
    · simp
    · split <;> simp

/-- **The parameters of an engine stay positive, and its number of input channels stays without a sign exactly if it
is not overdrawn.**  The engine starts from a usable configuration and any options, and is given options, operations,
starts, blocks, cleanups and resets, in any order:

* frames per second, per block, per cycle and ahead, and the number of output channels, are positive;
* the number of input channels is negative if it was last changed to a negative number, and only then: the
  configuration would be refused for the signs of these settings if it held them;
* a start publishes parameters that have these signs, whether it is accepted or not. -/
theorem signs_kept_iff {c : Config} {options : List String} (hc : c.fault? = none) (hb : 0 < c.engine.softwareFrames)
    (hs : Tuned ⟨c.engine, options⟩ changes s) :
    s.settings.AllPositive ∧ (0 ≤ s.settings.inputs ↔ ¬Overdrawn changes) ∧
      (({ c with engine := s.settings } : Config).fault? = some .notPositive ↔ Overdrawn changes) ∧
      ∀ io, let published := (s.start io).2.2.region
        (∀ f ∈ [Field.sampleRate, .blockFrames, .outputs, .hardwareFrames, .softwareFrames], 0 < published.get f) ∧
          (0 ≤ published.get .inputs ↔ ¬Overdrawn changes) := by
  obtain ⟨hpositive, hinputs⟩ := allPositive_of_usable hc hb
  have htracks := hs.tracks
  have hkept : s.settings.AllPositive := htracks.settings_eq ▸ foldl_tune_allPositive htracks.isPositive hpositive
  have hoverdrawn : s.settings.inputs < 0 ↔ Overdrawn changes :=
    htracks.settings_eq ▸ foldl_tune_inputs_neg_iff hinputs
  have hsign : 0 ≤ s.settings.inputs ↔ ¬Overdrawn changes := by rw [← hoverdrawn, Int.not_lt]
  refine ⟨hkept, hsign, (fault?_eq_notPositive_iff hc hkept).trans hoverdrawn, fun io => ?_⟩
  obtain ⟨hleft, -⟩ := start_left (rfl : s.start io = ((s.start io).1, (s.start io).2.1, (s.start io).2.2))
  have hpublished : (s.start io).2.2.region = s.publish io.region := congrArg Io.region hleft
  obtain ⟨hrate, hblock, houtputs, hin, hhardware, hsoftware⟩ := publish_settings s io.region
  simp only [hpublished, List.forall_mem_cons, List.not_mem_nil, false_implies, implies_true, and_true, hrate, hblock,
    houtputs, hin, hhardware, hsoftware]
  exact ⟨⟨hkept.sampleRate, hkept.blockFrames, hkept.outputs, hkept.hardwareFrames, hkept.softwareFrames⟩, hsign⟩

/-- An engine of the default configuration is given a negative number of input channels, and publishes it. -/
theorem signs_kept_iff_overdrawn :
    let c : Config := {}
    let (answer, s) := (fresh ⟨c.engine, []⟩).call .setOption [.str "--nchnls_i=-1"]
    c.fault? = none ∧ 0 < c.engine.softwareFrames ∧ Tuned ⟨c.engine, []⟩ [.inputs (-1)] s ∧ answer = .ok (.int 0) ∧
      s.settings.AllPositive ∧ s.settings.inputs < 0 ∧ ∀ io, (s.start io).2.2.region.get .inputs < 0 := by
  intro c
  have hc : c.fault? = none := by decide
  have hb : 0 < c.engine.softwareFrames := by decide
  have hbuilt : Tuned ⟨c.engine, []⟩ [] (fresh ⟨c.engine, []⟩) := .built rfl
  have hs : Tuned ⟨c.engine, []⟩ [.inputs (-1)] ((fresh ⟨c.engine, []⟩).call .setOption [.str "--nchnls_i=-1"]).2 :=
    hbuilt.call .setOption [.str "--nchnls_i=-1"]
  have hoverdrawn : Overdrawn [.inputs (-1)] := ⟨[], -1, [], rfl, by decide, nofun⟩
  obtain ⟨hpositive, hinputs, -, hstart⟩ := signs_kept_iff hc hb hs
  refine ⟨hc, hb, hs, rfl, hpositive, ?_, fun io => ?_⟩
  · exact Int.not_le.1 fun h => hinputs.1 h hoverdrawn
  · exact Int.not_le.1 fun h => (hstart io).2.1 h hoverdrawn

end

end Sine
end SynthControl
