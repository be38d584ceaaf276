import SynthControl.Proofs.Settings
import SynthControl.Proofs.Storing

/-!
# Configuration files that are saved and loaded

* `ofBytes_toUTF8`, `loadFrom_eq` — what is loaded from a file that holds a text;
* `saveTo_fits`, `saveTo_inexpressible` — what saving does to a tree, and what it leaves as it was;
* `save_load` — **a configuration that is saved is loaded again**; one that cannot be written destroys no
  file; and what a file leaves out has its default.
-/

namespace SynthControl.Config

variable {c : Config} {path : String} {t t' : FileTree}

/-- The configuration of a text is checked before it is used. -/
theorem ofBytes_toUTF8 {s : String} (h : ofText? s = some c) :
    ofBytes s.toUTF8 = match c.fault? with
      | none => .ok c
      | some fault => .error (.config fault.message) := by
  have hread : String.fromUTF8? s.toUTF8 = some s := dif_pos s.isValidUTF8
  rw [ofBytes, hread]
  dsimp only
  rw [h]
  dsimp only
  rw [validate]
  cases c.fault? <;> rfl

/-- A file is loaded without a change of the tree. -/
theorem loadFrom_eq {bytes : ByteArray} (h : t.read? path = some bytes) :
    (loadFrom path : StateM FileTree _).run t = (ofBytes bytes, t) := by
  have hread : (Files.read path : StateM FileTree _).run t = (some bytes, t) := congrArg (·, t) h
  rw [loadFrom, StateT.run_bind, hread]
  rfl

theorem run_attempt {change : FileTree → Option FileTree} (h : change t = some t') :
    (FileTree.attempt change).run t = (true, t') := by
  show FileTree.attempt change t = _
  rw [FileTree.attempt, h]

/-- A text is written behind the directories that it is in. -/
theorem writeInto_ok {s : String} {made : FileTree}
    (hmade : FileTree.makeDirectories? (Path.parent path) t = some made)
    (h : FileTree.write? path s.toUTF8 made = some t') :
    (writeInto path (.ok s) : StateM FileTree _).run t = (.ok (), t') := by
  have hdirs : (Files.makeDirectories (Path.parent path) : StateM FileTree _).run t = (true, made) := run_attempt hmade
  have hwrite : (Files.write path s.toUTF8 : StateM FileTree _).run made = (true, t') := run_attempt h
  rw [writeInto, StateT.run_bind, hdirs]
  show (Files.write path s.toUTF8 >>= fun done => if done = true then _ else _ : StateM FileTree _).run made = _
  rw [StateT.run_bind, hwrite]
  rfl

/-- Without a text, only the directories are made. -/
theorem writeInto_error {e : Error} {made : FileTree}
    (hmade : FileTree.makeDirectories? (Path.parent path) t = some made) :
    (writeInto path (.error e) : StateM FileTree _).run t = (.error e, made) := by
  have hdirs : (Files.makeDirectories (Path.parent path) : StateM FileTree _).run t = (true, made) := run_attempt hmade
  rw [writeInto, StateT.run_bind, hdirs]
  rfl

/-- A configuration that cannot be written makes only the directories. -/
theorem saveTo_inexpressible (hwords : c.HasWords) (hfits : ¬c.Fits) {made : FileTree}
    (hmade : FileTree.makeDirectories? (Path.parent path) t = some made) :
    (saveTo c path : StateM FileTree _).run t = (.error .inexpressible, made) := by
  have hnone : c.text? = none := by
    rw [← Option.not_isSome_iff_eq_none, isSome_text?_iff hwords]
    exact hfits
  rw [saveTo, hnone]
  exact writeInto_error hmade

/-- A configuration that can be written is the text of a file. -/
theorem saveTo_fits (hwords : c.HasWords) (hfits : c.Fits) (htakes : t.Takes path) :
    ∃ s t', ofText? s = some c ∧ t'.read? path = some s.toUTF8 ∧
      (saveTo c path : StateM FileTree _).run t = (.ok (), t') := by
  obtain ⟨s, hs⟩ := Option.isSome_iff_exists.1 ((isSome_text?_iff hwords).2 hfits)
  obtain ⟨made, place, hmade, hplace, hfree⟩ := htakes
  have hwrite : FileTree.write? path s.toUTF8 made = some (made.put place (.file s.toUTF8)) := by
    rw [FileTree.write?, hplace]
    exact if_neg (by rw [hfree]; decide)
  refine ⟨s, _, ofText?_text? hwords hs, FileTree.read?_write? hwrite, ?_⟩
  rw [saveTo, hs]
  exact writeInto_ok hmade hwrite

/-- **Configurations are saved and loaded without loss**, where every number has the size of its field.  One whose
counts fit is loaded as it was saved; one with a count that does not fit is refused, and every file is kept.  Of a
document that holds only some of the keys, these are loaded with the defaults elsewhere, unless the outcome cannot be
used. -/
theorem save_load (hvalid : c.validate = .ok ()) (hwords : c.HasWords) (path : String) (t : FileTree) :
    (c.Fits → t.Takes path → ∃ t',
      (saveTo c path : StateM FileTree _).run t = (.ok (), t') ∧
        (loadFrom path : StateM FileTree _).run t' = (.ok c, t')) ∧
    (¬c.Fits →
      (∀ bytes, t.read? path = some bytes →
        (saveTo c path : StateM FileTree _).run t = (.error .inexpressible, t)) ∧
      ∀ t', FileTree.makeDirectories? (Path.parent path) t = some t' →
        (saveTo c path : StateM FileTree _).run t = (.error .inexpressible, t') ∧
          ∀ file bytes, t.read? file = some bytes → t'.read? file = some bytes) ∧
    ∀ kept : String → String → Bool,
      (c.Fits → ∃ (s : String) (document : Toml.Entries),
        Toml.parse? s.toList = some document ∧ c.Holds kept document) ∧
      ∀ (s : String) (document : Toml.Entries), Toml.parse? s.toList = some document → c.Holds kept document →
        t.read? path = some s.toUTF8 →
          (loadFrom path : StateM FileTree _).run t =
            (match (c.mix kept).fault? with
              | none => .ok (c.mix kept)
              | some fault => .error (.config fault.message), t) := by
  refine ⟨fun hfits htakes => ?_, fun hfits => ⟨fun bytes hbytes => ?_, fun made hmade => ?_⟩, fun kept => ⟨?_, ?_⟩⟩
  · -- saved and loaded
    obtain ⟨s, t', htext, hread, hsaved⟩ := saveTo_fits hwords hfits htakes
    refine ⟨t', hsaved, ?_⟩
    rw [loadFrom_eq hread, ofBytes_toUTF8 htext, validate_eq_ok_iff.1 hvalid]
  · -- the directories of a file are there
    exact saveTo_inexpressible hwords hfits (FileTree.makeDirectories?_of_read? hbytes)
  · rw [FileTree.makeDirectories?_parent] at hmade
    refine ⟨saveTo_inexpressible hwords hfits ((FileTree.makeDirectories?_parent ..).trans hmade), ?_⟩
    exact fun _ _ hread => (FileTree.makeSteps?_extends hmade).read? hread
  · intro hfits
    obtain ⟨s, hs⟩ := exists_text hwords hfits kept
    exact ⟨s, _, hs, c.holds_restrict kept⟩
  · intro s document hs hholds hread
    rw [loadFrom_eq hread, ofBytes_toUTF8 (ofText?_of_holds hwords hs hholds)]

/-- The wait alone is changed and saved in a new directory; a wait that does not fit leaves a file as it was; and from a
configuration with other buffers a document holds only the channels. -/
theorem save_load_nested :
    (∃ t', (saveTo { control := { callWait := 250 } } "nested/config.toml" : StateM FileTree _).run {} = (.ok (), t') ∧
      (loadFrom "nested/config.toml" : StateM FileTree _).run t' = (.ok { control := { callWait := 250 } }, t')) ∧
    (saveTo { control := { callWait := 2 ^ 63 } } "config.toml" : StateM FileTree _).run
        ⟨[(["config.toml"], .file .empty)]⟩ = (.error .inexpressible, ⟨[(["config.toml"], .file .empty)]⟩) ∧
    ∃ s : String, (loadFrom "config.toml" : StateM FileTree _).run ⟨[(["config.toml"], .file s.toUTF8)]⟩ =
      (.ok { engine := { outputs := 1 } }, ⟨[(["config.toml"], .file s.toUTF8)]⟩) := by
  refine ⟨?_, ?_, ?_⟩
  · have hwords : HasWords { control := { callWait := 250 } } := by constructor <;> decide
    have htakes : FileTree.Takes {} "nested/config.toml" :=
      ⟨⟨[(["nested"], .directory)]⟩, ["nested", "config.toml"], rfl, rfl, rfl⟩
    exact (save_load rfl hwords "nested/config.toml" {}).1 (by constructor <;> decide) htakes
  · have hwords : HasWords { control := { callWait := 2 ^ 63 } } := by constructor <;> decide
    have hlarge : ¬Fits { control := { callWait := 2 ^ 63 } } := fun h => absurd h.callWait (by decide)
    exact ((save_load rfl hwords "config.toml" ⟨[(["config.toml"], .file .empty)]⟩).2.1 hlarge).1 .empty rfl
  · have hwords : HasWords { buffers := { midiCapacity := 7 }, engine := { outputs := 1 } } := by
      constructor <;> decide
    have hpart := fun t =>
      (save_load rfl hwords "config.toml" t).2.2 fun name key => name == "engine" && key == "nchnls"
    obtain ⟨s, document, hs, hholds⟩ := (hpart {}).1 (by constructor <;> decide)
    exact ⟨s, (hpart _).2 s document hs hholds rfl⟩

end SynthControl.Config
