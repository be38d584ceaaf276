import SynthControl.Proofs.Indifference

/-!
# Who lowers the paused word

A pause raises the paused word of the region of the performance, and nobody but the transport writes that word.
A resumption lowers it, an end resets it, and a replaced region begins with it low.  A stop is to lower it too,
so that a render loop that is woken sees the stop; but whether there is a pause to lift it reads from the phase and
not from the word, and the two part when a phase is reported after the pause.

* `Memory.Spares`, `Surroundings.Spares` — whoever else writes into the memory leaves the paused words alone;
* `Mark`, `Mark.leaves`, `marks` — what a run does about pauses, and what that makes of the word;
* `Transport.Acted.io_eq`, `Acted.current_eq` — when a performance moves to another region, and when its phase
  changes;
* `Stage.Seated`, `turn_paused` — **what every turn makes of the word**;
* `region_requestStop` — what an accepted stop leaves in the region;
* `Punctual`, `Lawful` — no phase is reported late, and then the word and the phase agree;
* `paused_iff` — **the word is raised exactly when the last of these was a pause**, stops apart that found
  another phase than the paused one.
-/

namespace SynthControl

/-! ### The paused words are spared -/

/-- No region is taken away, and the paused words of all of them are left alone. -/
structure Memory.Spares (m m' : Memory) : Prop where
  size_le : m.regions.size ≤ m'.regions.size
  paused_eq : ∀ i, i < m.regions.size → (m'.region i).get .paused = (m.region i).get .paused

/-- Whoever is told of phases spares the paused words. -/
def Surroundings.Spares {κ : Type} (S : Surroundings κ) : Prop :=
  ∀ c k m, Memory.Spares m (S.call c k m).2.2

theorem Memory.Spares.refl (m : Memory) : Spares m m := ⟨Nat.le_refl _, fun _ _ => rfl⟩

theorem Memory.Spares.trans {m m' m'' : Memory} (h : Spares m m') (h' : Spares m' m'') : Spares m m'' :=
  ⟨Nat.le_trans h.size_le h'.size_le,
    fun i hi => (h'.paused_eq i (Nat.lt_of_lt_of_le hi h.size_le)).trans (h.paused_eq i hi)⟩

/-- A change of one region spares the words, if it leaves the paused word alone. -/
theorem Memory.spares_modifyRegion (m : Memory) (i : Nat) {f : Region → Region}
    (hf : ∀ r, (f r).get .paused = r.get .paused) : Spares m (m.modifyRegion i f) := by
  refine ⟨Nat.le_of_eq Array.size_modify.symm, fun j hj => ?_⟩
  by_cases hij : i = j
  · rw [hij, region_modifyRegion_same m f hj, hf]
  · rw [region_modifyRegion_other m f hij]

namespace Transport

/-- A performance moves to another region only when its region is replaced. -/
theorem Acted.io_eq {t t' : Transport} {op : Op} {o : Output} (ha : Acted t op o t')
    (hop : op ≠ .replaceRegion) : t'.io = t.io := by
  cases ha with
  | arms | drops => exact t.dropStart_io
  | stops => exact t.dropStop_io
  | changes | pauses | resumes => exact enter_io t _
  | disconnects => exact (dropStop_io _).trans t.dropStart_io
  | replaces => exact absurd rfl hop
  | cannotArm | doesNotPause | doesNotResume | cannotStop | takes => rfl

/-- The phase changes only when one is entered. -/
theorem Acted.current_eq {t t' : Transport} {op : Op} {o : Output} (ha : Acted t op o t')
    (ho : o.phase? = none) : t'.current = t.current := by
  cases ha with
  | arms | drops => exact t.dropStart_current
  | stops => exact t.dropStop_current
  | changes | pauses | resumes => cases ho
  | disconnects => exact (dropStop_current _).trans t.dropStart_current
  | cannotArm | doesNotPause | doesNotResume | cannotStop | takes | replaces => rfl

end Transport

/-! ### What a run does about pauses -/

namespace Stage

variable {κ : Type}

/-- What an operation does about a pause. -/
inductive Mark where
  | paused
  | resumed
  /-- A stop was accepted; the phase was the paused one, or another one. -/
  | stopped (found : Bool)
  | ended
  | replaced
  deriving DecidableEq

/-- The paused word after it was `v`. -/
def Mark.leaves (v : Int) : Mark → Int
  | paused => 1
  | stopped false => v
  | resumed | stopped true | ended | replaced => 0

/-- What a turn did about a pause, if it did something. -/
def Turn.mark? : Turn → Transport.Output × Transport × Memory → Option Mark
  | .own .pause, (.entered (some _), _) => some .paused
  | .own .resume, (.entered (some _), _) => some .resumed
  | .own .requestStop, (.stopping (.ok (some _)), t, _) => some (.stopped (t.current == .realtimePaused))
  | .own (.change p), _ => if p.isEnded then some .ended else none
  | .own .replaceRegion, _ => some .replaced
  | _, _ => none

/-- What a run did about pauses, one after another. -/
def marks (turns : List Turn) (shown : List (Transport.Output × Transport × Memory)) : List Mark :=
  (turns.zip shown).filterMap fun a => a.1.mark? a.2

/-- The region of the performance exists. -/
def Seated (s : Stage κ) : Prop := s.transport.io.region < s.memory.regions.size

/-- The paused word of the performance. -/
def pausedWord (s : Stage κ) : Int := s.region.get .paused

/-! ### The entry of a phase -/

theorem seated_onRegion {s : Stage κ} (h : s.Seated) (f : Region → Region) : (s.onRegion f).Seated := by
  show s.transport.io.region < (s.memory.regions.modify _ f).size
  rw [Array.size_modify]
  exact h

theorem region_onRegion {s : Stage κ} (h : s.Seated) (f : Region → Region) :
    (s.onRegion f).region = f s.region :=
  Memory.region_modifyRegion_same _ _ h

theorem Seated.spared {s t : Stage κ} (h : s.Seated) (hio : t.transport.io = s.transport.io)
    (hm : s.memory.Spares t.memory) : t.Seated ∧ t.pausedWord = s.pausedWord := by
  rw [Seated, pausedWord, region, hio]
  exact ⟨Nat.lt_of_lt_of_le h hm.size_le, hm.paused_eq _ h⟩

section

variable {S : Surroundings κ} (hS : S.Spares) {s : Stage κ} (hs : s.Seated) (p : PlayState)
include hS hs

/-- A single act of the entry of a phase leaves the word alone, unless it resets the region. -/
theorem perform_paused {a : Act} :
    (s.perform S p a).Seated ∧ (a ≠ .reset → (s.perform S p a).pausedWord = s.pausedWord) := by
  have hcall : ∀ c, (s.tell S c).Seated ∧ (s.tell S c).pausedWord = s.pausedWord :=
    fun c => hs.spared (t := s.tell S c) rfl (hS c s.around s.memory)
  have hkept : ∀ t : Transport, t.io = s.transport.io →
      ({ s with transport := t } : Stage κ).Seated ∧
        ({ s with transport := t } : Stage κ).pausedWord = s.pausedWord :=
    fun t ht => hs.spared (t := { s with transport := t }) ht (.refl _)
  cases a with
  | enter => exact (hkept { s.transport with current := p } rfl).imp_right fun h _ => h
  | configure => exact (hcall (.configure (.ofRegion s.region s.transport.io))).imp_right fun h _ => h
  | reset => exact ⟨seated_onRegion hs _, fun h => absurd rfl h⟩
  | announce => exact (hcall (.announce p)).imp_right fun h _ => h
  | tell => exact (hcall (.follow p)).imp_right fun h _ => h
  | completeStop => exact (hkept _ (s.transport.resolveStop_io p)).imp_right fun h _ => h
  | completeStart => exact (hkept _ (s.transport.resolveStart_io p)).imp_right fun h _ => h

theorem foldl_perform_paused (acts : List Act) :
    (acts.foldl (perform S p) s).Seated ∧
      (.reset ∉ acts → (acts.foldl (perform S p) s).pausedWord = s.pausedWord) := by
  induction acts generalizing s with
  | nil => exact ⟨hs, fun _ => rfl⟩
  | cons a acts ih =>
    obtain ⟨hseated, hword⟩ := perform_paused hS hs p (a := a)
    obtain ⟨hseated', hword'⟩ := ih hseated
    refine ⟨hseated', fun hnot => ?_⟩
    obtain ⟨ha, hrest⟩ := not_or.1 (mt List.mem_cons.2 hnot)
    exact (hword' hrest).trans (hword (Ne.symm ha))

/-- **The entry of a phase leaves the word alone, and an end resets it.** -/
theorem change_paused :
    (s.change S p).Seated ∧ (s.change S p).pausedWord = if p.isEnded then 0 else s.pausedWord := by
  obtain ⟨hseated, hword⟩ := foldl_perform_paused hS hs p (script p)
  rw [← change_eq_script] at hseated hword
  refine ⟨hseated, ?_⟩
  split
  · next hp => exact get_region_change_of_isEnded S hp s .paused
  · next hp =>
    refine hword fun hmem => hp ?_
    revert hmem
    cases p <;> decide

end

/-- A pause that is accepted raises the word and enters its phase; one that is refused does nothing. -/
theorem act_pause (S : Surroundings κ) (s : Stage κ) :
    s.act S .pause = (.entered (some .realtimePaused),
        (s.onRegion fun r => r.set .paused 1).change S .realtimePaused) ∨
      s.act S .pause = (.entered none, s) := by
  rw [act, pause]
  split
  · exact .inl rfl
  · exact .inr rfl

/-- A resumption that is accepted lowers the word and enters its phase; one that is refused does nothing. -/
theorem act_resume (S : Surroundings κ) (s : Stage κ) :
    s.act S .resume = (.entered (some .realtimeResumed),
        (s.onRegion fun r => r.lower .paused).change S .realtimeResumed) ∨
      s.act S .resume = (.entered none, s) := by
  rw [act, resume]
  split
  · exact .inl rfl
  · exact .inr rfl

/-! ### Stops -/

theorem armStop_frame (t : Transport) : t.armStop.2.io = t.io ∧ t.armStop.2.current = t.current :=
  ⟨t.dropStop_io, t.dropStop_current⟩

/-- What an accepted stop does. -/
theorem requestStop_accepted {s : Stage κ} {c : Nat} (h : s.requestStop.1 = .ok (some c)) :
    s.requestStop.2 =
      onRegion { s with transport := s.transport.armStop.2 } (signalStop s.transport.current) := by
  rw [requestStop] at h ⊢
  split at h
  · cases h
  · next hstoppable =>
    split at h
    · cases h
    · next hd =>
      rw [if_neg hstoppable, if_neg hd, ← (armStop_frame s.transport).2]

/-- **An accepted stop leaves the region stopped and not performing, and the paused word low if it found the
paused phase, or the word low.** -/
theorem region_requestStop {s : Stage κ} (hs : s.Seated) {c : Nat} (h : s.requestStop.1 = .ok (some c)) :
    s.requestStop.2.Seated ∧ s.requestStop.2.transport.current = s.transport.current ∧
      s.requestStop.2.region.get .stop = 1 ∧ s.requestStop.2.region.get .performing = 0 ∧
      s.requestStop.2.pausedWord = if s.transport.current = .realtimePaused then 0 else s.pausedWord := by
  obtain ⟨hio, hcurrent⟩ := armStop_frame s.transport
  have harmed : ({ s with transport := s.transport.armStop.2 } : Stage κ).Seated := by
    rw [Seated, hio]
    exact hs
  have hregion : ({ s with transport := s.transport.armStop.2 } : Stage κ).region = s.region := by
    rw [region, hio]
    rfl
  have hsignal : ∀ (p : PlayState) (r : Region), (signalStop p r).get .stop = 1 ∧
      (signalStop p r).get .performing = 0 ∧
      (signalStop p r).get .paused = if p = .realtimePaused then 0 else r.get .paused := by
    intro p r
    have hother : ∀ (r : Region) (f g : Field) (v : Int), g ≠ f → (r.set f v).get g = r.get g :=
      fun r f g v hne => r.get_set_other v hne
    cases p <;> simp [signalStop, Region.lower, Region.raise, hother]
  rw [requestStop_accepted h, pausedWord, region_onRegion harmed, hregion]
  exact ⟨seated_onRegion harmed _, hcurrent, hsignal _ _⟩

/-- A stop that is refused does nothing. -/
theorem requestStop_cases (s : Stage κ) :
    (∃ c, s.requestStop.1 = .ok (some c)) ∨
      s.requestStop.2 = s ∧
        ∀ shown, Turn.mark? (.own .requestStop) (.stopping s.requestStop.1, shown) = none := by
  by_cases hrefused : ∀ c, s.requestStop.1 ≠ .ok (some c)
  · refine .inr ⟨requestStop_refused hrefused, fun shown => ?_⟩
    rcases hr : s.requestStop.1 with e | _ | c
    · rfl
    · rfl
    · exact absurd hr (hrefused c)
  · exact .inl (not_forall_not.1 hrefused)

/-! ### Turns -/

/-- **What a turn makes of the word.** -/
theorem turn_paused {S : Surroundings κ} (hS : S.Spares) {s : Stage κ} (hs : s.Seated) {a : Turn}
    (ha : ∀ f, a = .others f → ∀ m, Memory.Spares m (f m)) :
    (s.watch S a).2.Seated ∧
      (s.watch S a).2.pausedWord = ((a.mark? (s.watch S a).1).map (Mark.leaves s.pausedWord)).getD s.pausedWord := by
  -- an operation that leaves the memory alone
  have hidle : ∀ op, op ≠ .replaceRegion → (s.act S op).2.memory = s.memory →
      (s.act S op).2.Seated ∧ (s.act S op).2.pausedWord = s.pausedWord := by
    intro op hop hm
    exact hs.spared ((Transport.act_cases S op s).io_eq hop) (hm ▸ .refl _)
  have hswitch : ∀ (f : Region → Region) (p : PlayState), p.isEnded = false →
      ((s.onRegion f).change S p).Seated ∧ ((s.onRegion f).change S p).pausedWord = (f s.region).get .paused := by
    intro f p hp
    obtain ⟨hseated, hword⟩ := change_paused hS (seated_onRegion hs f) p
    rw [if_neg (by rw [hp]; decide)] at hword
    exact ⟨hseated, hword.trans (congrArg (Region.get · .paused) (region_onRegion hs f))⟩
  cases a with
  | others f => exact hs.spared (t := { s with memory := f s.memory }) rfl (ha f rfl s.memory)
  | own op =>
    cases op with
    | change p =>
      obtain ⟨hseated, hword⟩ := change_paused hS hs p
      refine ⟨hseated, hword.trans ?_⟩
      show _ = (Option.map _ (if p.isEnded then some Mark.ended else none)).getD _
      split <;> rfl
    | pause =>
      rcases act_pause S s with hact | hact <;> rw [watch, turn, hact]
      · obtain ⟨hseated, hword⟩ := hswitch (fun r => r.set .paused 1) .realtimePaused rfl
        exact ⟨hseated, hword.trans (Region.get_set_same _ _ _)⟩
      · exact ⟨hs, rfl⟩
    | resume =>
      rcases act_resume S s with hact | hact <;> rw [watch, turn, hact]
      · obtain ⟨hseated, hword⟩ := hswitch (fun r => r.lower .paused) .realtimeResumed rfl
        exact ⟨hseated, hword.trans (Region.get_set_same _ _ _)⟩
      · exact ⟨hs, rfl⟩
    | requestStop =>
      show s.requestStop.2.Seated ∧ s.requestStop.2.pausedWord =
        (Option.map _ (Turn.mark? (.own .requestStop)
          (.stopping s.requestStop.1, s.requestStop.2.transport, _))).getD _
      rcases requestStop_cases s with ⟨c, hc⟩ | ⟨hrefused, hmark⟩
      · obtain ⟨hseated, hcurrent, -, -, hword⟩ := region_requestStop hs hc
        refine ⟨hseated, hword.trans ?_⟩
        rw [hc]
        show _ = Mark.leaves s.pausedWord (.stopped (s.requestStop.2.transport.current == .realtimePaused))
        rw [hcurrent]
        by_cases hp : s.transport.current = .realtimePaused
        · rw [if_pos hp, hp]
          rfl
        · rw [if_neg hp, beq_false_of_ne hp]
          rfl
      · rw [hmark, hrefused]
        exact ⟨hs, rfl⟩
    | replaceRegion =>
      have hfresh : s.memory.allocRegion.2.region s.memory.allocRegion.1 = .fresh := by
        simp [Memory.region, Memory.allocRegion]
      refine ⟨?_, ?_⟩
      · show s.memory.regions.size < (s.memory.regions.push .fresh).size
        rw [Array.size_push]
        exact Nat.lt_succ_self _
      · show (s.memory.allocRegion.2.region s.memory.allocRegion.1).get .paused = 0
        rw [hfresh]
        rfl
    | armStart => exact hidle .armStart (by simp) rfl
    | dropStart => exact hidle .dropStart (by simp) rfl
    | disconnect => exact hidle .disconnect (by simp) rfl
    | take c => exact hidle (.take c) (by simp) rfl

/-! ### Runs -/

/-- What some marks make of the word. -/
def left (v : Int) (ms : List Mark) : Int := ms.foldl Mark.leaves v

/-- The marks of a run apart from those that leave the word alone. -/
def telling (ms : List Mark) : List Mark := ms.filter (· ≠ .stopped false)

/-- The last mark is the last that tells, unless it is one that leaves the word alone. -/
theorem getLast?_telling {ms : List Mark} (h : ms.getLast? ≠ some (.stopped false)) :
    (telling ms).getLast? = ms.getLast? := by
  rcases List.eq_nil_or_concat ms with rfl | ⟨init, m, rfl⟩
  · rfl
  · rw [List.concat_eq_append, List.getLast?_concat] at h ⊢
    have hm : m ≠ .stopped false := fun hm => h (congrArg some hm)
    rw [telling, List.filter_append, List.filter_cons_of_pos (by simpa using hm), List.filter_nil,
      List.getLast?_concat]

/-- The last mark decides that does not leave the word alone. -/
theorem left_eq (ms : List Mark) :
    left 0 ms = if (telling ms).getLast? = some .paused then 1 else 0 := by
  induction ms using List.reverseRecOn with
  | nil => rfl
  | append_singleton ms m ih =>
    have hleft : left 0 (ms ++ [m]) = m.leaves (left 0 ms) := List.foldl_append
    by_cases hm : m = .stopped false
    · rw [hleft, ih, telling, telling, hm, List.filter_append, List.filter_cons_of_neg (by decide),
        List.filter_nil, List.append_nil]
      rfl
    · have hlast : (ms ++ [m]).getLast? ≠ some (.stopped false) := by
        rw [List.getLast?_concat]
        exact fun h => hm (Option.some.inj h)
      rw [hleft, getLast?_telling hlast, List.getLast?_concat]
      cases m with
      | stopped found =>
        cases found with
        | true => rfl
        | false => exact absurd rfl hm
      | _ => rfl

/-- A run leaves the word as its marks do. -/
theorem run_paused {S : Surroundings κ} (hS : S.Spares) {s : Stage κ} (hs : s.Seated) {turns : List Turn}
    (hturns : ∀ f, Turn.others f ∈ turns → ∀ m, Memory.Spares m (f m)) :
    (final (watch S) turns s).Seated ∧
      (final (watch S) turns s).pausedWord = left s.pausedWord (marks turns (outputs (watch S) turns s)) := by
  induction turns generalizing s with
  | nil => exact ⟨hs, rfl⟩
  | cons a turns ih =>
    obtain ⟨hseated, hword⟩ := turn_paused hS hs (a := a) fun f hf =>
      hturns f (hf ▸ List.mem_cons_self)
    obtain ⟨hfinal, hleft⟩ := ih hseated fun f hf => hturns f (List.mem_cons_of_mem _ hf)
    refine ⟨hfinal, hleft.trans ?_⟩
    rw [hword, outputs, marks, marks, List.zip_cons_cons, List.filterMap_cons]
    cases a.mark? (s.watch S a).1 <;> rfl

/-- While the word is raised no phase is reported but an end. -/
def Punctual (S : Surroundings κ) : List Turn → Stage κ → Prop
  | [], _ => True
  | a :: turns, s =>
    (∀ p, a = .own (.change p) → p.isEnded = false → s.pausedWord ≠ 1) ∧ Punctual S turns (s.watch S a).2

/-- If the word is raised, the phase is the paused one, and the last thing done about a pause was to pause. -/
structure Lawful (last : Option Mark) (s : Stage κ) : Prop where
  seated : s.Seated
  raised_iff : s.pausedWord = 1 ↔ last = some .paused
  phase : s.pausedWord = 1 → s.transport.current = .realtimePaused

/-- The law holds where the word is low. -/
theorem Lawful.low {last : Option Mark} {s : Stage κ} (hs : s.Seated) (hword : s.pausedWord ≠ 1)
    (hlast : last ≠ some .paused) : Lawful last s :=
  ⟨hs, iff_of_false hword hlast, fun h => absurd h hword⟩

/-- The law goes on to hold when neither word nor phase changes. -/
theorem Lawful.keep {last : Option Mark} {s s' : Stage κ} (h : Lawful last s) (hs : s'.Seated)
    (hword : s'.pausedWord = s.pausedWord) (hcurrent : s'.transport.current = s.transport.current) :
    Lawful last s' :=
  ⟨hs, by rw [hword]; exact h.raised_iff, by rw [hword, hcurrent]; exact h.phase⟩

/-- A turn keeps the law, if it reports no phase late. -/
theorem Lawful.turn {S : Surroundings κ} (hS : S.Spares) {last : Option Mark} {s : Stage κ}
    (h : Lawful last s) {a : Turn} (ha : ∀ f, a = .others f → ∀ m, Memory.Spares m (f m))
    (hreport : ∀ p, a = .own (.change p) → p.isEnded = false → s.pausedWord ≠ 1) :
    Lawful ((a.mark? (s.watch S a).1).or last) (s.watch S a).2 := by
  obtain ⟨hseated, hword⟩ := turn_paused hS h.seated ha
  cases a with
  | others f => exact h.keep hseated hword rfl
  | own op =>
    cases op with
    | change p =>
      by_cases hp : p.isEnded = true
      · have hmark : Turn.mark? (.own (.change p)) (s.watch S (.own (.change p))).1 = some .ended :=
          if_pos hp
        rw [hmark] at hword ⊢
        exact .low hseated (ne_of_eq_of_ne hword Int.zero_ne_one) (by simp)
      · have hmark : Turn.mark? (.own (.change p)) (s.watch S (.own (.change p))).1 = none :=
          if_neg hp
        have hlow := hreport p rfl (Bool.eq_false_iff.2 hp)
        rw [hmark] at hword ⊢
        exact .low hseated (by rw [hword]; exact hlow) (mt h.raised_iff.2 hlow)
    | pause =>
      rcases act_pause S s with hact | hact <;> rw [watch, Stage.turn, hact] at hseated hword ⊢
      · have hcurrent := (congrArg Transport.current (change_transport S .realtimePaused
          (s.onRegion fun r => r.set .paused 1))).trans (Transport.enter_current _ _)
        exact ⟨hseated, iff_of_true hword rfl, fun _ => hcurrent⟩
      · exact h
    | resume =>
      rcases act_resume S s with hact | hact <;> rw [watch, Stage.turn, hact] at hseated hword ⊢
      · exact .low hseated (ne_of_eq_of_ne hword Int.zero_ne_one) fun h => by cases h
      · exact h
    | requestStop =>
      show Lawful ((Turn.mark? (.own .requestStop)
        (.stopping s.requestStop.1, s.requestStop.2.transport, _)).or last) s.requestStop.2
      rcases requestStop_cases s with ⟨c, hc⟩ | ⟨hrefused, hmark⟩
      · obtain ⟨hseated, hcurrent, -, -, hword⟩ := region_requestStop h.seated hc
        rw [hc]
        refine .low hseated ?_ fun h => by cases h
        rw [hword]
        split
        · exact Int.zero_ne_one
        · next hphase => exact mt h.phase hphase
      · rw [hmark, hrefused]
        exact h
    | replaceRegion => exact .low hseated (ne_of_eq_of_ne hword Int.zero_ne_one) fun h => by cases h
    | armStart => exact h.keep hseated hword ((Transport.act_cases S .armStart s).current_eq rfl)
    | dropStart => exact h.keep hseated hword ((Transport.act_cases S .dropStart s).current_eq rfl)
    | disconnect => exact h.keep hseated hword ((Transport.act_cases S .disconnect s).current_eq rfl)
    | take c => exact h.keep hseated hword rfl

/-- A run keeps the law, if it reports no phase late. -/
theorem Lawful.run {S : Surroundings κ} (hS : S.Spares) {last : Option Mark} {s : Stage κ}
    (h : Lawful last s) {turns : List Turn} (hturns : ∀ f, Turn.others f ∈ turns → ∀ m, Memory.Spares m (f m))
    (hpunctual : Punctual S turns s) :
    Lawful ((marks turns (outputs (watch S) turns s)).getLast?.or last) (final (watch S) turns s) := by
  induction turns generalizing s last with
  | nil => exact h
  | cons a turns ih =>
    obtain ⟨hreport, hrest⟩ := hpunctual
    have hturn := h.turn hS (fun f hf => hturns f (hf ▸ List.mem_cons_self)) hreport
    have hrun := ih hturn (fun f hf => hturns f (List.mem_cons_of_mem _ hf)) hrest
    have hmarks : marks (a :: turns) (outputs (watch S) (a :: turns) s) =
        (a.mark? (s.watch S a).1).toList ++ marks turns (outputs (watch S) turns (s.watch S a).2) := by
      rw [outputs, marks, marks, List.zip_cons_cons, List.filterMap_cons]
      cases a.mark? (s.watch S a).1 <;> rfl
    rw [hmarks, List.getLast?_append, Option.or_assoc]
    cases hm : a.mark? (s.watch S a).1 <;> rw [hm] at hrun <;> exact hrun

/-- **The word is raised exactly when the last thing done about a pause was to pause**, stops apart that found
another phase than the paused one.  These leave the word as it is, so that it is still raised after a stop if a
phase was reported since the pause; every other accepted stop lowers it. -/
theorem paused_iff {S : Surroundings κ} (hS : S.Spares) (prior : Memory) (samples messages : Nat) (around : κ)
    (turns : List Turn) (hturns : ∀ f, Turn.others f ∈ turns → ∀ m, Memory.Spares m (f m)) :
    let io := (prior.allocIo samples messages).1
    let s₀ := Stage.new io (prior.allocIo samples messages).2 around
    let s := final (watch S) turns s₀
    let ms := marks turns (outputs (watch S) turns s₀)
    (s.pausedWord = 0 ∨ s.pausedWord = 1) ∧
      (s.pausedWord = 1 ↔ (telling ms).getLast? = some .paused) ∧
      ((s.pausedWord = 1 ↔ ms.getLast? = some .paused) ↔
        ¬ (ms.getLast? = some (.stopped false) ∧ s.pausedWord = 1)) ∧
      (Punctual S turns s₀ → (s.pausedWord = 1 ↔ ms.getLast? = some .paused)) ∧
      ∀ c, s.requestStop.1 = .ok (some c) →
        s.requestStop.2.region.get .stop = 1 ∧ s.requestStop.2.region.get .performing = 0 ∧
          (s.requestStop.2.pausedWord = 0 ↔ s.transport.current = .realtimePaused ∨ s.pausedWord = 0) := by
  intro io s₀ s ms
  have hregion : s₀.region = .fresh := by
    show (prior.allocIo samples messages).2.region (prior.allocIo samples messages).1.region = .fresh
    simp [Memory.region, Memory.allocIo, Memory.allocRegion, Memory.allocBank]
  have hlow : s₀.pausedWord = 0 := congrArg (Region.get · .paused) hregion
  have hseated : s₀.Seated := by
    show prior.regions.size < (prior.regions.push .fresh).size
    rw [Array.size_push]
    exact Nat.lt_succ_self _
  obtain ⟨hs, hleft⟩ := run_paused hS hseated hturns
  have hword : s.pausedWord = if (telling ms).getLast? = some .paused then 1 else 0 := by
    rw [← left_eq, ← hlow]
    exact hleft
  have hraised : s.pausedWord = 1 ↔ (telling ms).getLast? = some .paused := by
    rw [hword]
    split <;> simp [*]
  refine ⟨?_, hraised, ?_, ?_, ?_⟩
  · rw [hword]
    split
    · exact .inr rfl
    · exact .inl rfl
  · constructor
    · rintro hlaw ⟨hlast, hone⟩
      rw [hlaw.1 hone] at hlast
      cases hlast
    · intro hnot
      by_cases hlast : ms.getLast? = some (.stopped false)
      · exact iff_of_false (fun hone => hnot ⟨hlast, hone⟩) (by rw [hlast]; simp)
      · rw [hraised, getLast?_telling hlast]
  · intro hpunctual
    have hbegun : Lawful none s₀ := .low hseated (ne_of_eq_of_ne hlow Int.zero_ne_one) (by simp)
    have hlaw := hbegun.run hS hturns hpunctual
    rw [Option.or_none] at hlaw
    exact hlaw.raised_iff
  · intro c hc
    obtain ⟨-, -, hstop, hperforming, hpaused⟩ := region_requestStop (s := s) hs hc
    refine ⟨hstop, hperforming, ?_⟩
    rw [hpaused]
    by_cases hphase : s.transport.current = .realtimePaused
    · rw [if_pos hphase]
      exact iff_of_true rfl (.inl hphase)
    · rw [if_neg hphase]
      exact ⟨.inr, fun h => h.resolve_left hphase⟩

/-- A pause that is accepted while the start of the performance is still to be reported: the stop finds the phase
of the start, and leaves the word raised. -/
theorem paused_iff_late :
    let turns : List Turn :=
      [.others fun m => m.modifyRegion 0 fun r => r.set .performing 1, .own .pause,
        .own (.change .realtimeStarted), .own .requestStop]
    let s₀ := Stage.new (Memory.allocIo {} 16 4).1 (Memory.allocIo {} 16 4).2 ()
    let s := final (watch meddler) turns s₀
    let ms := marks turns (outputs (watch meddler) turns s₀)
    meddler.Spares ∧ (∀ f, Turn.others f ∈ turns → ∀ m, Memory.Spares m (f m)) ∧
      ms = [.paused, .stopped false] ∧ s.pausedWord = 1 ∧
      ¬ (s.pausedWord = 1 ↔ ms.getLast? = some .paused) := by
  intro turns s₀ s ms
  have hperforming : ∀ r : Region, (r.set .performing 1).get .paused = r.get .paused :=
    fun r => r.get_set_other 1 (by decide)
  have hS : meddler.Spares := by
    intro c k m
    cases c with
    | announce | configure => exact .refl m
    | follow => exact Memory.spares_modifyRegion m 0 hperforming
  have hturns : ∀ f, Turn.others f ∈ turns → ∀ m, Memory.Spares m (f m) := by
    intro f hf m
    simp only [turns, List.mem_cons, Turn.others.injEq, List.not_mem_nil, or_false, reduceCtorEq] at hf
    rw [hf]
    exact Memory.spares_modifyRegion m 0 hperforming
  have hmarks : ms = [.paused, .stopped false] := by decide
  obtain ⟨-, hraised, hlaw, -, -⟩ := paused_iff hS {} 16 4 () turns hturns
  have hone : s.pausedWord = 1 := hraised.2 ((congrArg (fun ms => (telling ms).getLast?) hmarks).trans rfl)
  exact ⟨hS, hturns, hmarks, hone, fun hboth => hlaw.1 hboth ⟨(congrArg List.getLast? hmarks).trans rfl, hone⟩⟩

end Stage
end SynthControl
