import SynthControl.Config.File
import SynthControl.Proofs.Sections

/-!
# Configurations and their documents

A configuration is written as a document, and a document with some of its keys is read as a configuration.

* `HasWords`, `Fits`, `isSome_text?_iff` — **which configurations have a text**;
* `Holds`, `holds_restrict` — the documents with some of the keys of a configuration;
* `mix`, `ofDocument?_of_holds` — **such a document is read as the configuration under these keys**, and as the
  defaults elsewhere;
* `exists_text`, `ofText?_of_holds`, `ofText?_text?` — the same for texts.
-/

namespace SynthControl

open Toml (Node Entries WellNamed documentOf)

namespace Config

/-- Every number that has 32 bits fits them. -/
structure HasWords (c : Config) : Prop where
  sampleRate : Decimal.isWord c.engine.sampleRate = true
  blockFrames : Decimal.isWord c.engine.blockFrames = true
  outputs : Decimal.isWord c.engine.outputs = true
  inputs : Decimal.isWord c.engine.inputs = true
  hardwareFrames : Decimal.isWord c.engine.hardwareFrames = true
  softwareFrames : Decimal.isWord c.engine.softwareFrames = true

/-- Every count fits a signed integer of 64 bits. -/
structure Fits (c : Config) : Prop where
  midiCapacity : c.buffers.midiCapacity < 2 ^ 63
  maxChannels : c.buffers.maxChannels < 2 ^ 63
  maxHardwareFrames : c.buffers.maxHardwareFrames < 2 ^ 63
  callWait : c.control.callWait < 2 ^ 63

variable {c : Config}

/-- The sections of a configuration can be written as a document. -/
theorem wellNamed_sections (c : Config) : WellNamed c.sections where
  hasKeys := by
    simp only [Toml.HasKeys, sections, List.forall_mem_cons, List.not_mem_nil, IsEmpty.forall_iff, implies_true,
      and_true]
    simp [Toml.isKey_iff, Toml.isBare]
  names := by simp [sections]
  keys := by simp [sections, Entries.keys]

end Config

namespace Toml

/-- What a document holds under the name of a section, which need not be there. -/
inductive HasSection (document : Entries) (name : String) : Entries → Prop
  | missing (h : document.lookup name = none) : HasSection document name []
  | table {origin : Origin} {es : Entries} (h : document.lookup name = some (.table origin es)) :
    HasSection document name es

/-- The sections that are written are held. -/
theorem HasSection.of_mem {parts : List (String × Entries)} (hnames : (parts.map Prod.fst).Nodup) {name : String}
    {es : Entries} (hmem : (name, es) ∈ parts) : HasSection (documentOf parts) name es := by
  have hkeys : (documentOf parts).keys.Nodup := by rwa [keys_documentOf]
  have htable : (name, .table .header es) ∈ documentOf parts := List.mem_map_of_mem hmem
  exact .table (Entries.lookup_of_mem hkeys htable)

/-- Nodes that give a setting its value: an integer may stand for a float. -/
inductive Node.StandsFor : Node → Node → Prop
  | same (v : Node) : StandsFor v v
  | whole (n : Int) : StandsFor (.integer n) (.float (.ofInt n))

/-- Exactly the keys that are kept have their nodes. -/
def Entries.Holds (given : Entries) (kept : String → Bool) (es : Entries) : Prop :=
  ∀ e ∈ es, if kept e.1 then ∃ w, given.lookup e.1 = some w ∧ w.StandsFor e.2 else given.lookup e.1 = none

end Toml

namespace Config

variable {c : Config}

/-- The document holds exactly the keys that are kept, with the values of the configuration. -/
def Holds (c : Config) (kept : String → String → Bool) (document : Entries) : Prop :=
  ∀ s ∈ c.sections, ∃ given, Toml.HasSection document s.1 given ∧ given.Holds (kept s.1) s.2

/-- There is such a document: the one that is written of these keys alone. -/
theorem holds_restrict (c : Config) (kept : String → String → Bool) :
    c.Holds kept (documentOf (Toml.restrict kept c.sections)) := by
  have hnamed := c.wellNamed_sections
  intro s hs
  have hmem : (s.1, s.2.filter fun e => kept s.1 e.1) ∈ Toml.restrict kept c.sections := List.mem_map_of_mem hs
  refine ⟨_, .of_mem (hnamed.restrict kept).names hmem, fun e he => ?_⟩
  rw [Entries.lookup_filter (hnamed.keys s hs) _ he]
  split
  · exact ⟨e.2, rfl, .same _⟩
  · rfl

/-- The configuration with its own settings under some keys, and the defaults elsewhere. -/
def mix (kept : String → String → Bool) (c : Config) : Config :=
  let d : Config := {}
  { buffers :=
      { midiCapacity := if kept "buffers" "midi_capacity" then c.buffers.midiCapacity else d.buffers.midiCapacity
        maxChannels := if kept "buffers" "max_channels" then c.buffers.maxChannels else d.buffers.maxChannels
        maxHardwareFrames :=
          if kept "buffers" "max_hardware_buffer_size" then c.buffers.maxHardwareFrames
          else d.buffers.maxHardwareFrames }
    control :=
      { callWait := if kept "control" "call_wait_timeout_ms" then c.control.callWait else d.control.callWait }
    engine :=
      { sampleRate := if kept "engine" "sample_rate" then c.engine.sampleRate else d.engine.sampleRate
        blockFrames := if kept "engine" "ksmps" then c.engine.blockFrames else d.engine.blockFrames
        outputs := if kept "engine" "nchnls" then c.engine.outputs else d.engine.outputs
        inputs := if kept "engine" "nchnls_i" then c.engine.inputs else d.engine.inputs
        hardwareFrames :=
          if kept "engine" "hardware_buffer_size" then c.engine.hardwareFrames else d.engine.hardwareFrames
        softwareFrames :=
          if kept "engine" "software_buffer_size" then c.engine.softwareFrames else d.engine.softwareFrames
        frequency := if kept "engine" "frequency" then c.engine.frequency else d.engine.frequency
        amplitude := if kept "engine" "amplitude" then c.engine.amplitude else d.engine.amplitude }
    render :=
      { realtimeClock := if kept "render" "realtime_clock" then c.render.realtimeClock else d.render.realtimeClock } }

theorem mix_all (c : Config) : c.mix (fun _ _ => true) = c := rfl

/-- What a document holds under the name of a section is what is read of the section. -/
theorem section?_eq {document given : Entries} {name : String}
    (h : Toml.HasSection document name given) : section? document name = some given := by
  cases h with
  | missing h => rw [section?, h]
  | table h =>
    rw [section?, h]
    rfl

section

variable {given : Entries} {kept : String → Bool} {key : String}

/-- A setting is read if its key is kept, and is the default otherwise. -/
theorem setting?_eq {α : Type} {read : Node → Option α} {v : Node} {a : α}
    (hread : ∀ w : Node, w.StandsFor v → read w = some a)
    (h : if kept key then ∃ w, given.lookup key = some w ∧ w.StandsFor v else given.lookup key = none) (d : α) :
    setting? read given key d = some (if kept key then a else d) := by
  rw [setting?]
  split at h
  · obtain ⟨w, hw, hstands⟩ := h
    rw [hw, if_pos ‹_›]
    exact hread w hstands
  · rw [h, if_neg ‹_›]

theorem count?_of_standsFor {n : Nat} (w : Node) (h : w.StandsFor (.integer n)) : count? w = some n := by
  cases h
  rw [count?, if_pos (Int.natCast_nonneg n), Int.toNat_natCast]

theorem word?_of_standsFor {n : Int} (hn : Decimal.isWord n = true) (w : Node) (h : w.StandsFor (.integer n)) :
    word? w = some n := by
  cases h
  exact if_pos hn

theorem float?_of_standsFor {x : Float} (w : Node) (h : w.StandsFor (.float x)) : float? w = some x := by
  cases h <;> rfl

theorem flag?_of_standsFor {b : Bool} (w : Node) (h : w.StandsFor (.boolean b)) : flag? w = some b := by
  cases h
  rfl

end

/-- **A document with some of the keys is read as the configuration there**, and as the defaults elsewhere. -/
theorem ofDocument?_of_holds {kept : String → String → Bool} {document : Entries} (hwords : c.HasWords)
    (h : c.Holds kept document) : ofDocument? document = some (c.mix kept) := by
  simp only [Holds, Entries.Holds, sections, List.forall_mem_cons, List.not_mem_nil, IsEmpty.forall_iff, implies_true,
    and_true] at h
  obtain ⟨⟨b, hb, hmidi, hchannels, hframes⟩, ⟨u, hu, hwait⟩,
    ⟨e, he, hrate, hblock, houtputs, hinputs, hhardware, hsoftware, hfrequency, hamplitude⟩, ⟨r, hr, hclock⟩⟩ := h
  have hbuffers : buffers? b = some (c.mix kept).buffers := by
    simp only [buffers?, setting?_eq count?_of_standsFor hmidi, setting?_eq count?_of_standsFor hchannels,
      setting?_eq count?_of_standsFor hframes]
    rfl
  have hcontrol : control? u = some (c.mix kept).control := by
    simp only [control?, setting?_eq count?_of_standsFor hwait]
    rfl
  have hengine : engine? e = some (c.mix kept).engine := by
    simp only [engine?, setting?_eq (word?_of_standsFor hwords.sampleRate) hrate,
      setting?_eq (word?_of_standsFor hwords.blockFrames) hblock,
      setting?_eq (word?_of_standsFor hwords.outputs) houtputs,
      setting?_eq (word?_of_standsFor hwords.inputs) hinputs,
      setting?_eq (word?_of_standsFor hwords.hardwareFrames) hhardware,
      setting?_eq (word?_of_standsFor hwords.softwareFrames) hsoftware,
      setting?_eq float?_of_standsFor hfrequency, setting?_eq float?_of_standsFor hamplitude]
    rfl
  have hrender : rendering? r = some (c.mix kept).render := by
    simp only [rendering?, setting?_eq flag?_of_standsFor hclock]
    rfl
  simp only [ofDocument?, section?_eq hb, section?_eq hu, section?_eq he, section?_eq hr, hbuffers, hcontrol, hengine,
    hrender, Option.bind_eq_bind, Option.bind_some]
  rfl

/-! ### Texts -/

/-- **A configuration has a text exactly if its counts fit.** -/
theorem isSome_text?_iff (hwords : c.HasWords) : c.text?.isSome ↔ c.Fits := by
  have hword : ∀ {n : Int}, Decimal.isWord n = true → Toml.isLong n = true := by
    intro n hn
    simp only [Decimal.isWord, Toml.isLong, Bool.and_eq_true, decide_eq_true_eq] at hn ⊢
    omega
  have hcount : ∀ n : Nat, Toml.isLong n = true ↔ n < 2 ^ 63 := by
    intro n
    simp only [Toml.isLong, Bool.and_eq_true, decide_eq_true_eq]
    omega
  simp only [text?, Option.isSome_map, Toml.isSome_write?, sections, List.forall_mem_cons, List.not_mem_nil,
    IsEmpty.forall_iff, implies_true, and_true, true_and, Toml.isSome_write?_integer, hcount, hword hwords.sampleRate,
    hword hwords.blockFrames, hword hwords.outputs, hword hwords.inputs, hword hwords.hardwareFrames,
    hword hwords.softwareFrames]
  constructor
  · rintro ⟨⟨hmidi, hchannels, hframes⟩, hwait, -⟩
    exact ⟨hmidi, hchannels, hframes, hwait⟩
  · intro h
    exact ⟨⟨h.midiCapacity, h.maxChannels, h.maxHardwareFrames⟩, h.callWait, ⟨rfl, rfl⟩, rfl⟩

/-- Where its counts fit, some of the keys of a configuration are the document of a text. -/
theorem exists_text (hwords : c.HasWords) (hfits : c.Fits) (kept : String → String → Bool) :
    ∃ s : String, Toml.parse? s.toList = some (documentOf (Toml.restrict kept c.sections)) := by
  have hall := (isSome_text?_iff hwords).2 hfits
  rw [text?, Option.isSome_map, Toml.isSome_write?] at hall
  have hwritten : (Toml.write? (Toml.restrict kept c.sections)).isSome := by
    refine Toml.isSome_write?.2 fun part hpart e he => ?_
    obtain ⟨s, hs, rfl⟩ := List.mem_map.1 hpart
    exact hall s hs e (List.mem_of_mem_filter he)
  obtain ⟨s, hs⟩ := Option.isSome_iff_exists.1 hwritten
  refine ⟨String.ofList s, ?_⟩
  rw [String.toList_ofList]
  exact Toml.parse?_write (c.wellNamed_sections.restrict kept) hs

/-- **A text with some of the keys is read as the configuration there**, and as the defaults elsewhere. -/
theorem ofText?_of_holds {kept : String → String → Bool} {document : Entries} {s : String} (hwords : c.HasWords)
    (hs : Toml.parse? s.toList = some document) (h : c.Holds kept document) : ofText? s = some (c.mix kept) := by
  rw [ofText?, hs, Option.bind_some, ofDocument?_of_holds hwords h]

/-- **The text of a configuration is read as the configuration**. -/
theorem ofText?_text? {s : String} (hwords : c.HasWords) (hs : c.text? = some s) : ofText? s = some c := by
  obtain ⟨l, hl, rfl⟩ := Option.map_eq_some_iff.1 hs
  have hparse := Toml.parse?_write c.wellNamed_sections hl
  have hholds := c.holds_restrict fun _ _ => true
  rw [Toml.restrict_all] at hholds
  rw [← mix_all c]
  exact ofText?_of_holds hwords (by rw [String.toList_ofList, hparse]) hholds

end Config
end SynthControl
