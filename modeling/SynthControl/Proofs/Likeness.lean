import SynthControl.Proofs.Coherence
import SynthControl.Proofs.Effects
import SynthControl.Proofs.Overwriting

/-!
# Memories and engines that are alike

Two performances can differ in what nobody looks at: regions that were given up, audio from before the present
performance, the place in a ring, and the files of the engine.  This says what it is not to differ in anything else,
and that the engine does not notice the rest.

* `Ring.Like`, `Bank.Like`, `Memory.Like` — alike but for old audio and old regions; what is done with both keeps
  them alike;
* `Sine.dressed` — an engine with other files; `start_dressed`, `perform_dressed`, `cleanup_dressed`, `call_dressed`
  — **the engine does not look at its files**, except for the operations that tell of them;
* `start_alike`, `perform_alike`, `cleanup_alike`, `call_alike` — **two such engines on memories that are alike do
  the same**.
-/

namespace SynthControl

/-! ### Rings and memories that are alike -/

section Rings

variable {α : Type} {c : Nat} {heard : Bool} {r' r : Ring α}

/-- Two rings of a capacity; if they are `heard`, the same samples can be read from both. -/
def Ring.Like (c : Nat) (heard : Bool) (r' r : Ring α) : Prop :=
  ∃ q' q, r'.Holds c q' ∧ r.Holds c q ∧ (heard = true → q' = q)

namespace Ring.Like

/-- A ring that is not heard need only have the right capacity. -/
theorem unheard {q' q : List α} (h' : r'.Holds c q') (h : r.Holds c q) : Ring.Like c false r' r :=
  ⟨q', q, h', h, by simp⟩

theorem capacity_eq (h : Ring.Like c heard r' r) : r'.capacity = r.capacity := by
  obtain ⟨q', q, h', h, -⟩ := h
  rw [h'.capacity_eq, h.capacity_eq]

theorem contents_eq (h : Ring.Like c true r' r) : r'.contents = r.contents := by
  obtain ⟨q', q, h', h, hq⟩ := h
  rw [h'.contents_eq, h.contents_eq, hq rfl]

theorem unread_eq (h : Ring.Like c true r' r) : r'.unread = r.unread := by
  rw [← Ring.length_contents, ← Ring.length_contents, h.contents_eq]

/-- What is done with both keeps them alike. -/
theorem step (h : Ring.Like c heard r' r) (op : Ring.Op α) :
    Ring.Like c heard (op.onRing r').2 (op.onRing r).2 := by
  obtain ⟨q', q, h', h, hq⟩ := h
  refine ⟨_, _, (h'.step op).2, (h.step op).2, fun hh => ?_⟩
  rw [hq hh]

/-- Rings that were cleared are alike in everything. -/
theorem clear (h : Ring.Like c heard r' r) : Ring.Like c true r'.clear r.clear := by
  obtain ⟨q', q, h', h, -⟩ := h
  exact ⟨[], [], (h'.step .clear).2, (h.step .clear).2, fun _ => rfl⟩

theorem write (h : Ring.Like c heard r' r) (data : List α) : Ring.Like c heard (r'.write data) (r.write data) :=
  h.step (.write data)

theorem read (h : Ring.Like c heard r' r) (n : Nat) : Ring.Like c heard (r'.read n).2 (r.read n).2 :=
  h.step (.read n)

theorem read_fst (h : Ring.Like c true r' r) (n : Nat) : (r'.read n).1 = (r.read n).1 := by
  rw [Ring.read_fst, Ring.read_fst, h.contents_eq]

end Ring.Like

end Rings

variable {size : Buffers} {ρ : Nat} {heard : Bool}

/-- The rings are alike and of the sizes that buffers have. -/
structure Bank.Like (size : Buffers) (heard : Bool) (b' b : Bank) : Prop where
  input : Ring.Like (max size.ringSamples 1) heard b'.audio.input b.audio.input
  output : Ring.Like (max size.ringSamples 1) heard b'.audio.output b.audio.output
  midi' : b'.midi.capacity = max size.midiCapacity 1
  midi : b.midi.capacity = max size.midiCapacity 1

theorem Bank.Like.clear {b' b : Bank} (h : Bank.Like size heard b' b) :
    Bank.Like size true { b' with audio := b'.audio.clear } { b with audio := b.audio.clear } :=
  ⟨h.input.clear, h.output.clear, h.midi', h.midi⟩

/-- The same region, and rings that are alike. -/
structure Io.Like (size : Buffers) (heard : Bool) (io' io : Io) : Prop where
  region : io'.region = io.region
  bank : Bank.Like size heard io'.bank io.bank

/-- The same bank, and a region `ρ` further on. -/
def Handle.shift (ρ : Nat) (h : Handle) : Handle := ⟨ρ + h.region, h.bank⟩

/-- From its region `ρ` on, one memory has the regions of another; each has one bank, and these are alike. -/
structure Memory.Like (size : Buffers) (ρ : Nat) (heard : Bool) (m' m : Memory) : Prop where
  regions : m'.regions.size = ρ + m.regions.size
  region : ∀ i, m'.region (ρ + i) = m.region i
  banks' : m'.banks.size = 1
  banks : m.banks.size = 1
  bank : Bank.Like size heard (m'.bank 0) (m.bank 0)

namespace Memory.Like

variable {m' m : Memory} {h : Handle}

theorem io (hm : Memory.Like size ρ heard m' m) (hb : h.bank = 0) : (m'.io (h.shift ρ)).Like size heard (m.io h) := by
  refine ⟨hm.region h.region, ?_⟩
  show Bank.Like size heard (m'.bank h.bank) (m.bank h.bank)
  rw [hb]
  exact hm.bank

theorem modifyRegion (hm : Memory.Like size ρ heard m' m) (i : Nat) (f : Region → Region) :
    Memory.Like size ρ heard (m'.modifyRegion (ρ + i) f) (m.modifyRegion i f) := by
  refine ⟨?_, fun j => ?_, hm.banks', hm.banks, hm.bank⟩
  · simp [Memory.modifyRegion, hm.regions]
  · by_cases hij : i = j
    · subst hij
      by_cases hi : i < m.regions.size
      · have hi' : ρ + i < m'.regions.size := by rw [hm.regions]; omega
        rw [region_modifyRegion_same _ _ hi, region_modifyRegion_same _ _ hi', hm.region]
      · have hi' : ¬ ρ + i < m'.regions.size := by rw [hm.regions]; omega
        simp [Memory.modifyRegion, Memory.region, Array.getD, hi, hi']
    · rw [region_modifyRegion_other _ _ hij, region_modifyRegion_other _ _ (by omega), hm.region]

theorem modifyBank {heard₂ : Bool} (hm : Memory.Like size ρ heard m' m) {f' f : Bank → Bank}
    (hf : Bank.Like size heard₂ (f' (m'.bank 0)) (f (m.bank 0))) :
    Memory.Like size ρ heard₂ (m'.modifyBank 0 f') (m.modifyBank 0 f) := by
  have hbank : ∀ (m : Memory) (f : Bank → Bank), m.banks.size = 1 → (m.modifyBank 0 f).bank 0 = f (m.bank 0) := by
    intro m f hsize
    simp [Memory.modifyBank, Memory.bank, Array.getD, Array.getElem_modify, hsize]
  refine ⟨hm.regions, hm.region, ?_, ?_, ?_⟩
  · simp [Memory.modifyBank, hm.banks']
  · simp [Memory.modifyBank, hm.banks]
  · rw [hbank _ _ hm.banks', hbank _ _ hm.banks]
    exact hf

theorem setIo {heard₂ : Bool} (hm : Memory.Like size ρ heard m' m) (hb : h.bank = 0) {io' io : Io}
    (hio : io'.Like size heard₂ io) : Memory.Like size ρ heard₂ (m'.setIo (h.shift ρ) io') (m.setIo h io) := by
  rw [Memory.setIo, Memory.setIo]
  show Memory.Like size ρ heard₂ ((m'.modifyRegion (ρ + h.region) _).modifyBank h.bank _) _
  rw [hb, hio.region]
  exact (hm.modifyRegion h.region _).modifyBank hio.bank

theorem allocRegion (hm : Memory.Like size ρ heard m' m) :
    m'.allocRegion.1 = ρ + m.allocRegion.1 ∧ Memory.Like size ρ heard m'.allocRegion.2 m.allocRegion.2 := by
  have hpush : ∀ (m : Memory) i, m.allocRegion.2.region i = if i = m.regions.size then .fresh else m.region i := by
    intro m i
    simp only [Memory.allocRegion, Memory.region, Array.getD_eq_getD_getElem?, Array.getElem?_push]
    split <;> rfl
  refine ⟨hm.regions, ?_, fun i => ?_, hm.banks', hm.banks, hm.bank⟩
  · simp only [Memory.allocRegion, Array.size_push, hm.regions]
    omega
  · rw [hpush, hpush, hm.regions, hm.region]
    by_cases hi : i = m.regions.size <;> simp [hi]

end Memory.Like

/-! ### Operations that look at the files -/

/-- The answer tells something of the files. -/
def Operation.tellsFiles : Operation → Bool
  | readFile | listFiles | listFileSizes | removeFiles => true
  | _ => false

namespace Sine

/-- The engine as if it had been built from settings alone, with other files. -/
def dressed (t : Settings) (files : Catalog ByteArray) (s : Sine) : Sine :=
  { s with origin := ⟨t, []⟩, files := files }

section

variable (t : Settings) (f : Catalog ByteArray) (s : Sine)

theorem start_dressed (io : Io) :
    (s.dressed t f).start io = ((s.start io).1, (s.start io).2.1.dressed t f, (s.start io).2.2) := by
  rw [start, start]
  dsimp only
  show (if io.bank.audio.output.capacity < s.blockSamples then _ else _) = _
  split <;> rfl

theorem perform_dressed (io : Io) :
    (s.dressed t f).perform io = ((s.perform io).1, (s.perform io).2.1.dressed t f, (s.perform io).2.2) := by
  rw [perform, perform]
  show (if s.isOver then _ else _) = _
  split
  · rfl
  · cases hm : s.mode with
    | realtime =>
      by_cases hi : s.input.size ≠ 0
      · simp only [dressed, hm, true_and, if_pos hi, takeInput, tone]
      · simp only [dressed, hm, true_and, if_neg hi, tone]
    | offline => simp only [dressed, hm, reduceCtorEq, false_and, if_false, tone]

theorem save_dressed : ∃ g, (s.dressed t f).save = s.save.map (dressed t g) := by
  rw [save, save]
  cases hout : s.output with
  | none =>
    have hout' : (s.dressed t f).output = none := hout
    rw [hout']
    exact ⟨f, rfl⟩
  | some path =>
    have hout' : (s.dressed t f).output = some path := hout
    rw [hout']
    dsimp only
    show ∃ g, (if s.sound.isEven = true then _ else _) = _
    split
    · exact ⟨f.insert path s.sound.encode, rfl⟩
    · exact ⟨f, rfl⟩

theorem cleanup_dressed (io : Io) :
    ∃ g, (s.dressed t f).cleanup io =
      ((s.cleanup io).1, (s.cleanup io).2.1.dressed t g, (s.cleanup io).2.2) := by
  rw [cleanup, cleanup]
  dsimp only
  by_cases hm : s.mode = .offline
  · have hm' : (s.dressed t f).mode = .offline := hm
    rw [if_pos hm, if_pos hm']
    obtain ⟨g, hg⟩ := save_dressed t f { s with performing := false }
    have hg' : ({ s.dressed t f with performing := false } : Sine).save = _ := hg
    rw [hg']
    cases ({ s with performing := false } : Sine).save with
    | ok e => exact ⟨g, rfl⟩
    | error e => exact ⟨f, rfl⟩
  · have hm' : ¬ (s.dressed t f).mode = .offline := hm
    rw [if_neg hm, if_neg hm']
    exact ⟨f, rfl⟩

theorem setOption?_dressed (option : String) :
    (s.dressed t f).setOption? option = (s.setOption? option).map (dressed t f) := by
  rw [setOption?, setOption?]
  show (s.readOption option).map _ = _
  cases s.readOption option with
  | error e => rfl
  | ok c => cases c <;> rfl

theorem setOptions_dressed (options : List String) :
    (s.dressed t f).setOptions options =
      ((s.setOptions options).1.dressed t f, (s.setOptions options).2) := by
  induction options generalizing s with
  | nil => rfl
  | cons option options ih =>
    rw [setOptions, setOptions, setOption?_dressed]
    cases s.setOption? option with
    | error e => rfl
    | ok s' => exact ih s'

theorem compile_dressed (document : List Char) :
    (s.dressed t f).compile document = ((s.compile document).1.dressed t f, (s.compile document).2) := by
  rw [compile, compile]
  dsimp only
  rw [setOptions_dressed]
  rcases s.setOptions _ with ⟨s', _ | ⟨option, e⟩⟩
  · dsimp only
    cases section? document "CsInstruments".toList <;> cases section? document "CsScore".toList <;> rfl
  · rfl

/-- It makes no difference what an operation looks at, if it is the same for both. -/
theorem look_dressed {α : Type} (x : Except EngineError α) {k' k : α → Action Value}
    (h : ∀ a, (k' a).run.run (s.dressed t f) = Prod.map id (dressed t f) ((k a).run.run s)) :
    (liftM x >>= k' : Action Value).run.run (s.dressed t f) =
      Prod.map id (dressed t f) ((liftM x >>= k : Action Value).run.run s) := by
  cases x with
  | error e => rfl
  | ok a => exact h a

/-- An operation that has nothing to do with files does not notice them. -/
theorem carryOut_dressed (op : Operation) (args : List Value) (hf : op.tellsFiles = false) (hw : op ≠ .writeFile) :
    (carryOut args op).run.run (s.dressed t f) = Prod.map id (dressed t f) ((carryOut args op).run.run s) := by
  cases op
  case writeFile => exact absurd rfl hw
  case readFile => cases hf
  case listFiles => cases hf
  case listFileSizes => cases hf
  case removeFiles => cases hf
  case compileCsd =>
    refine look_dressed t f s _ fun document => ?_
    show compileDocument document (s.dressed t f) = Prod.map id (dressed t f) (compileDocument document s)
    rw [compileDocument, compileDocument, compile_dressed]
    rcases s.compile document.toList with ⟨s', _ | e⟩ <;> rfl
  case compileOrc =>
    refine look_dressed t f s _ fun code => ?_
    split <;> rfl
  case setOption =>
    refine look_dressed t f s _ fun option => ?_
    show (Except.ok ((s.dressed t f).callSetOption option).1, ((s.dressed t f).callSetOption option).2) =
      (Except.ok (s.callSetOption option).1, (s.callSetOption option).2.dressed t f)
    rw [callSetOption, callSetOption, setOption?_dressed]
    cases s.setOption? option <;> rfl
  case tableGet =>
    exact look_dressed t f s _ fun _ => look_dressed t f s _ fun number =>
      look_dressed t f s (s.table number) fun _ => look_dressed t f s _ fun _ => rfl
  case tableSet =>
    exact look_dressed t f s _ fun number => look_dressed t f s _ fun _ => look_dressed t f s _ fun _ =>
      look_dressed t f s (s.table number) fun _ => look_dressed t f s _ fun _ => rfl
  case setControlChannel => exact look_dressed t f s _ fun _ => look_dressed t f s _ fun _ => rfl
  case setStringChannel => exact look_dressed t f s _ fun _ => look_dressed t f s _ fun _ => rfl
  case evalCode => exact look_dressed t f s _ fun _ => rfl
  case readScore => exact look_dressed t f s _ fun _ => rfl
  case inputMessage => exact look_dressed t f s _ fun _ => rfl
  case getControlChannel => exact look_dressed t f s _ fun _ => rfl
  case getStringChannel => exact look_dressed t f s _ fun _ => rfl
  case setScorePending => exact look_dressed t f s _ fun _ => rfl
  case setScoreOffset => exact look_dressed t f s _ fun _ => rfl
  case tableLength => exact look_dressed t f s _ fun _ => rfl
  all_goals rfl

/-- An operation on files changes nothing but them. -/
theorem fileCall_dressed {op : Operation} (args : List Value) (hf : op.tellsFiles = true ∨ op = .writeFile) :
    ∃ g, ((s.dressed t f).call op args).2 = (s.call op args).2.dressed t g ∧
      (op.tellsFiles = false → ((s.dressed t f).call op args).1 = (s.call op args).1) := by
  cases op
  case writeFile =>
    simp only [call, carryOut]
    cases textArg args 0 with
    | error e => exact ⟨f, rfl, fun _ => rfl⟩
    | ok path =>
      cases bytesArg args 1 with
      | error e => exact ⟨f, rfl, fun _ => rfl⟩
      | ok data => exact ⟨f.insert path data, rfl, fun _ => rfl⟩
  case readFile =>
    have hread : ∀ s : Sine, Leaves (· = s) s (carryOut args .readFile) := fun s =>
      .look (fun _ _ => rfl) fun path _ => .look (P := (· = s)) (x := s.file path) (fun _ _ => rfl) fun _ _ => rfl
    exact ⟨f, by rw [(hread (s.dressed t f)).call, (hread s).call], by simp [Operation.tellsFiles]⟩
  case listFiles => exact ⟨f, rfl, by simp [Operation.tellsFiles]⟩
  case listFileSizes => exact ⟨f, rfl, by simp [Operation.tellsFiles]⟩
  case removeFiles =>
    simp only [call, carryOut]
    cases textArg args 0 with
    | error e => exact ⟨f, rfl, fun _ => rfl⟩
    | ok path => exact ⟨f.eraseIf (isWithin path), rfl, by simp [Operation.tellsFiles]⟩
  all_goals rcases hf with hf | hf <;> cases hf

theorem call_dressed (op : Operation) (args : List Value) :
    ∃ g, ((s.dressed t f).call op args).2 = (s.call op args).2.dressed t g ∧
      (op.tellsFiles = false → ((s.dressed t f).call op args).1 = (s.call op args).1) := by
  by_cases hf : op.tellsFiles = true ∨ op = .writeFile
  · exact fileCall_dressed t f s args hf
  · rw [not_or, Bool.not_eq_true] at hf
    simp only [call, carryOut_dressed t f s op args hf.1 hf.2]
    rcases (carryOut args op).run.run s with ⟨e | v, s'⟩
    · exact ⟨f, rfl, fun _ => rfl⟩
    · exact ⟨f, rfl, fun _ => rfl⟩

end
end Sine

namespace Sine

variable (t : Settings) (f' f : Catalog ByteArray) {size : Buffers} {heard : Bool} {io' io : Io}

/-! ### Two engines side by side -/

theorem start_like (h : io'.Like size heard io) (s : Sine) :
    ∃ left', s.start io' = ((s.start io).1, (s.start io).2.1, left') ∧ left'.Like size heard (s.start io).2.2 := by
  rw [start, start]
  dsimp only
  rw [h.bank.output.capacity_eq, h.region]
  split
  · exact ⟨_, rfl, rfl, h.bank⟩
  · exact ⟨_, rfl, rfl, h.bank⟩

theorem takeInput_like (h : io'.Like size true io) (s : Sine) :
    (s.takeInput io').1 = (s.takeInput io).1 ∧ (s.takeInput io').2.Like size true (s.takeInput io).2 := by
  have hread := h.bank.input.read_fst s.input.size
  refine ⟨?_, h.region, h.bank.input.read _, h.bank.output, h.bank.midi', h.bank.midi⟩
  rw [takeInput, takeInput]
  dsimp only
  rw [hread]

theorem perform_like (h : io'.Like size true io) (s : Sine) :
    ∃ left', s.perform io' = ((s.perform io).1, (s.perform io).2.1, left') ∧
      left'.Like size true (s.perform io).2.2 := by
  rw [perform, perform]
  split
  · exact ⟨io', rfl, h⟩
  · -- the input that a block takes is the same, and so is what it writes
    obtain ⟨s₁, left', left, htaken', htaken, hleft⟩ : ∃ s₁ left' left,
        (if s.mode = .realtime ∧ s.input.size ≠ 0 then s.takeInput io' else (s, io')) = (s₁, left') ∧
        (if s.mode = .realtime ∧ s.input.size ≠ 0 then s.takeInput io else (s, io)) = (s₁, left) ∧
        left'.Like size true left := by
      split
      · obtain ⟨hs, hleft⟩ := takeInput_like h s
        exact ⟨(s.takeInput io).1, (s.takeInput io').2, (s.takeInput io).2, Prod.ext hs rfl, rfl, hleft⟩
      · exact ⟨s, io', io, rfl, rfl, h⟩
    rw [htaken', htaken]
    dsimp only
    cases s₁.mode with
    | realtime =>
      exact ⟨_, rfl, hleft.region, hleft.bank.input, hleft.bank.output.write _, hleft.bank.midi', hleft.bank.midi⟩
    | offline => exact ⟨left', rfl, hleft⟩

/-- The end of a performance does not look at the memory. -/
theorem cleanup_eq (io' io : Io) (s : Sine) : s.cleanup io' = ((s.cleanup io).1, (s.cleanup io).2.1, io') := by
  rw [cleanup, cleanup]
  dsimp only
  split <;> rfl

theorem start_alike (h : io'.Like size heard io) (s : Sine) :
    ∃ (r : _) (e : Sine) (left' left : Io), (s.dressed t f').start io' = (r, e.dressed t f', left') ∧
      (s.dressed t f).start io = (r, e.dressed t f, left) ∧ left'.Like size heard left ∧ r ≠ .crashed := by
  obtain ⟨left', hstart, hleft⟩ := start_like h s
  refine ⟨(s.start io).1, (s.start io).2.1, left', (s.start io).2.2, ?_, s.start_dressed t f io, hleft,
    (start_left rfl).2⟩
  rw [start_dressed, hstart]

theorem perform_alike (h : io'.Like size true io) (s : Sine) :
    ∃ (r : _) (e : Sine) (left' left : Io), (s.dressed t f').perform io' = (r, e.dressed t f', left') ∧
      (s.dressed t f).perform io = (r, e.dressed t f, left) ∧ left'.Like size true left ∧ r ≠ .crashed := by
  obtain ⟨left', hperform, hleft⟩ := perform_like h s
  refine ⟨(s.perform io).1, (s.perform io).2.1, left', (s.perform io).2.2, ?_, s.perform_dressed t f io, hleft,
    (perform_aside rfl).2⟩
  rw [perform_dressed, hperform]

theorem cleanup_alike (io' io : Io) (s : Sine) :
    ∃ (r : _) (e : Sine) (g' g : _), (s.dressed t f').cleanup io' = (r, e.dressed t g', io') ∧
      (s.dressed t f).cleanup io = (r, e.dressed t g, io) ∧ r ≠ .crashed := by
  obtain ⟨r, e, hended, hr⟩ := cleanup_keeps io s
  obtain ⟨g', hg'⟩ := s.cleanup_dressed t f' io'
  obtain ⟨g, hg⟩ := s.cleanup_dressed t f io
  rw [cleanup_eq io' io s, hended] at hg'
  rw [hended] at hg
  exact ⟨r, e, g', g, hg', hg, hr⟩

theorem call_alike (op : Operation) (args : List Value) (s : Sine) :
    ∃ (v' v : _) (e : Sine) (g' g : _), (s.dressed t f').call op args = (v', e.dressed t g') ∧
      (s.dressed t f).call op args = (v, e.dressed t g) ∧ (op.tellsFiles = false → v' = v) ∧ v' ≠ .crashed ∧
      v ≠ .crashed := by
  obtain ⟨g', hg', hv'⟩ := s.call_dressed t f' op args
  obtain ⟨g, hg, hv⟩ := s.call_dressed t f op args
  exact ⟨_, _, (s.call op args).2, g', g, Prod.ext rfl hg', Prod.ext rfl hg, fun h => (hv' h).trans (hv h).symm,
    engine_steady.call op args _, engine_steady.call op args _⟩

end Sine

end SynthControl
