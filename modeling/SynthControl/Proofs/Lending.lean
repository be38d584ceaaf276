import SynthControl.Proofs.Cycling

/-!
# Lending the callbacks

A device lends its callbacks to a loop when it begins one, and takes them back when it joins it.  Between the calls
of the device the loop has its turns, in which a callback may crash.

* `Entry`, `Device.followNoting` — a ledger of the loops that a device begins and joins, and a device that keeps it;
* `Device.IsTold`, `Device.Joined`, `Device.Followed` — a loop that was told to stop, and what the device may do when
  it joins a loop, and when it is told of a phase;
* `Custody`, `Custody.Passes`, `Kept` — who has the callbacks, and a ledger in which one loop at a time has them;
* `Act`, `Course.acts`, `Course.ledger` — calls of the device, turns of its loop and whatever else happens;
* `lending_lawful` — **the callbacks are never lost**, and a crash is reported by the call that joins the loop.
-/

namespace SynthControl

/-- The phases on which a device joins its loop. -/
def PlayState.joins : PlayState → Bool
  | realtimeStarted | realtimeEnded | renderEnded | stopped => true
  | _ => false

namespace Render

variable {ω : Type}

/-! ### A device with a ledger -/

/-- An entry in the ledger of a device. -/
inductive Entry (ω : Type) where
  /-- A loop is begun, and the callbacks are lent to it. -/
  | begun (p : Parameters) (h : Hooks ω)
  /-- A loop is joined, which was left like this. -/
  | joined (l : Loop ω)

def Entry.isBegun : Entry ω → Bool
  | begun _ _ => true
  | joined _ => false

def Entry.isJoined : Entry ω → Bool
  | begun _ _ => false
  | joined _ => true

/-- The loops that were begun. -/
def begunIn (log : List (Entry ω)) : Nat := log.countP Entry.isBegun

/-- The loops that were joined. -/
def joinedIn (log : List (Entry ω)) : Nat := log.countP Entry.isJoined

namespace Device

/-- Take the callbacks back, with the entry for that. -/
def collectNoting (d : Device ω) : List (Entry ω) × Except Fault Unit × Device ω :=
  match d.loop with
  | none => ([], .ok (), d)
  | some l =>
    if l.run = .crashed then ([.joined l], .error .crashed, { d with loop := none, hooks := some {} })
    else ([.joined l], .ok (), { d with loop := none, hooks := some l.hooks })

/-- Wait for the end of the loop and take the callbacks back, with the entry for that. -/
def joinNoting (d : Device ω) (w : ω) (m : Memory) :
    List (Entry ω) × Except Fault Unit × Device ω × ω × Memory :=
  let (d, w, m) := advance patience d w m
  let (log, r, d) := d.collectNoting
  (log, r, d, w, m)

/-- Begin a loop and lend it the callbacks, with the entry for that. -/
def spawnNoting (d : Device ω) : List (Entry ω) × Except Fault Unit × Device ω :=
  match d.params with
  | none => ([], .error .notConfigured, d)
  | some p =>
    match d.hooks with
    | none => ([], .error .hooksLost, d)
    | some h => ([.begun p h], .ok (), { d with hooks := none, loop := some (.start p h), cycles := 0, asleep := 0 })

/-- The device is told of a phase, with the entries for what it does. -/
def followNoting (p : PlayState) (d : Device ω) (w : ω) (m : Memory) :
    List (Entry ω) × Except Fault Unit × Device ω × ω × Memory :=
  match p with
  | .realtimeStarted =>
    match d.joinNoting w m with
    | (log, .error e, r) => (log, .error e, r)
    | (log, .ok (), d, w, m) =>
      let (more, r, d) := d.spawnNoting
      (log ++ more, r, d, w, m)
  | .realtimeEnded | .renderEnded | .stopped => d.joinNoting w m
  | _ => ([], .ok (), d, w, m)

theorem collectNoting_nobody {d : Device ω} (hloop : d.loop = none) : d.collectNoting = ([], .ok (), d) := by
  rw [collectNoting, hloop]

theorem collectNoting_returned {d : Device ω} {l : Loop ω} (hloop : d.loop = some l) (hrun : l.run ≠ .crashed) :
    d.collectNoting = ([.joined l], .ok (), { d with loop := none, hooks := some l.hooks }) := by
  rw [collectNoting, hloop]
  exact if_neg hrun

theorem collectNoting_crashed {d : Device ω} {l : Loop ω} (hloop : d.loop = some l) (hrun : l.run = .crashed) :
    d.collectNoting = ([.joined l], .error .crashed, { d with loop := none, hooks := some {} }) := by
  rw [collectNoting, hloop]
  exact if_pos hrun

theorem collectNoting_snd (d : Device ω) : d.collectNoting.2 = d.collect := by
  rw [collectNoting, collect]
  cases d.loop with
  | none => rfl
  | some l =>
    dsimp only
    split <;> rfl

theorem joinNoting_snd (d : Device ω) (w : ω) (m : Memory) : (d.joinNoting w m).2 = d.join w m := by
  rw [joinNoting, join]
  dsimp only
  rw [← collectNoting_snd]

theorem spawnNoting_unconfigured {d : Device ω} (hparams : d.params = none) :
    d.spawnNoting = ([], .error .notConfigured, d) := by
  rw [spawnNoting, hparams]

theorem spawnNoting_begun {d : Device ω} {p : Parameters} {h : Hooks ω} (hparams : d.params = some p)
    (hhooks : d.hooks = some h) :
    d.spawnNoting =
      ([.begun p h], .ok (), { d with hooks := none, loop := some (.start p h), cycles := 0, asleep := 0 }) := by
  rw [spawnNoting, hparams, hhooks]

theorem spawnNoting_snd (d : Device ω) : d.spawnNoting.2 = d.spawn := by
  rw [spawnNoting, spawn]
  cases d.params with
  | none => rfl
  | some p => cases d.hooks <;> rfl

/-- **Without its ledger it is the device.** -/
theorem followNoting_snd (p : PlayState) (d : Device ω) (w : ω) (m : Memory) :
    (d.followNoting p w m).2 = d.follow p w m := by
  have hjoin := d.joinNoting_snd w m
  cases p with
  | realtimeStarted =>
    rw [followNoting, follow, ← hjoin]
    obtain ⟨log, r, d', w', m'⟩ := d.joinNoting w m
    cases r with
    | error e => rfl
    | ok =>
      dsimp only
      rw [← spawnNoting_snd]
  | realtimeEnded | renderEnded | stopped => exact hjoin
  | _ => rfl

end Device

/-! ### A loop goes on -/

/-- A loop is still the one that was begun.  One that has ended does nothing any more. -/
structure Loop.GoesOn (l l' : Loop ω) : Prop where
  params_eq : l'.params = l.params
  hooks_eq : l'.hooks = l.hooks
  ended : l.run ≠ .running → l' = l

/-- A device has the same callbacks, and its loop goes on. -/
structure Device.GoesOn (d d' : Device ω) : Prop where
  hooks_eq : d'.hooks = d.hooks
  loop : Option.Rel Loop.GoesOn d.loop d'.loop

theorem Loop.GoesOn.refl (l : Loop ω) : l.GoesOn l := ⟨rfl, rfl, fun _ => rfl⟩

theorem Device.GoesOn.refl (d : Device ω) : d.GoesOn d := by
  refine ⟨rfl, ?_⟩
  cases d.loop with
  | none => exact .none
  | some l => exact .some (.refl l)

/-- A loop that has ended stays as it is. -/
theorem Device.GoesOn.ended {d d' : Device ω} (hg : d.GoesOn d') {l : Loop ω} (hl : d.loop = some l)
    (hrun : l.run ≠ .running) : d'.loop = some l := by
  have hloop := hg.loop
  rw [hl] at hloop
  cases hl' : d'.loop with
  | none =>
    rw [hl'] at hloop
    cases hloop
  | some l' =>
    rw [hl'] at hloop
    obtain ⟨hgoes⟩ := hloop
    rw [hgoes.ended hrun]

theorem Loop.absorb_keeps_hooks (l : Loop ω) (w : ω) (io : Io) :
    (l.absorb w io).1.params = l.params ∧ (l.absorb w io).1.hooks = l.hooks := by
  rw [absorb]
  cases l.params.wantsInput with
  | false => exact ⟨rfl, rfl⟩
  | true =>
    cases l.hooks.source with
    | none => exact ⟨rfl, rfl⟩
    | some f =>
      simp only [Bool.not_true, Bool.false_eq_true, if_false]
      split <;> exact ⟨rfl, rfl⟩

theorem Loop.turnAmong_goesOn (others : Gap → Io → Io) (l : Loop ω) (w : ω) (io : Io) :
    l.GoesOn (l.turnAmong others w io).2.1 := by
  rw [turnAmong]
  cases hrun : l.run with
  | finished | crashed => exact .refl l
  | running =>
    have hrunning (h : l.run ≠ .running) {l' : Loop ω} : l' = l := absurd hrun h
    cases check io.region with
    | rest => exact .refl l
    | leave => exact ⟨rfl, rfl, fun h => hrunning h⟩
    | cycle =>
      show l.GoesOn (l.cycleAmong others w io).2.1
      rw [cycleAmong, goOn]
      split
      · exact ⟨rfl, rfl, fun h => hrunning h⟩
      rw [goOn]
      split
      · exact ⟨rfl, rfl, fun h => hrunning h⟩
      dsimp only
      rw [goOn]
      split <;> exact ⟨(absorb_keeps_hooks l _ _).1, (absorb_keeps_hooks l _ _).2, fun h => hrunning h⟩

namespace Device

variable {d : Device ω} {w : ω} {m : Memory}

theorem turnAmong_goesOn (others : Gap → Io → Io) (d : Device ω) (w : ω) (m : Memory) :
    d.GoesOn (d.turnAmong others w m).1 ∧ (d.turnAmong others w m).1.params = d.params := by
  rw [turnAmong]
  cases hloop : d.loop with
  | none => exact ⟨.refl d, rfl⟩
  | some l => exact ⟨⟨rfl, by rw [hloop]; exact .some (l.turnAmong_goesOn others w _)⟩, rfl⟩

theorem tick_goesOn (d : Device ω) (w : ω) (m : Memory) :
    d.GoesOn (d.tick w m).1 ∧ (d.tick w m).1.params = d.params := by
  rw [tick]
  split
  · split
    · next l _ =>
      rw [← turnAmong_id]
      obtain ⟨⟨hhooks, hl⟩, hparams⟩ := turnAmong_goesOn (fun _ => id)
        { d with asleep := if d.realtimeClock then period l.params else 0 } w m
      exact ⟨⟨hhooks, hl⟩, hparams⟩
    · exact ⟨.refl d, rfl⟩
  · exact ⟨⟨rfl, (GoesOn.refl d).loop⟩, rfl⟩

/-! ### Joining a loop that was told to stop -/

/-- A loop that still runs has been told to stop.  One that crashes before it takes notice of that, crashes in a turn
of its own before it is joined. -/
def IsTold (d : Device ω) (m : Memory) : Prop :=
  ∀ l, d.loop = some l → l.run = .running → Loop.Ends (m.io l.params.io)

theorem isTold_of_none (h : d.loop = none) (m : Memory) : d.IsTold m :=
  fun l hl => absurd (h.symm.trans hl) (by simp)

theorem isTold_of_ended {l : Loop ω} (hloop : d.loop = some l) (hrun : l.run ≠ .running) (m : Memory) : d.IsTold m :=
  fun l' hl' hrun' => by
    obtain rfl := Option.some.inj (hloop.symm.trans hl')
    exact absurd hrun' hrun

/-- What joining may do: there is no loop; it has finished, and gives its callbacks back; or it has crashed. -/
inductive Joined (d : Device ω) : List (Entry ω) → Except Fault Unit → Device ω → Prop
  | nobody (h : d.loop = none) : Joined d [] (.ok ()) d
  | returned {l l' : Loop ω} (h : d.loop = some l) (hgoes : l.GoesOn l') (hrun : l'.run = .finished) :
    Joined d [.joined l'] (.ok ()) { d with loop := none, hooks := some l'.hooks }
  | crashed {l : Loop ω} (h : d.loop = some l) (hrun : l.run = .crashed) :
    Joined d [.joined l] (.error .crashed) { d with loop := none, hooks := some {} }

theorem advance_of_isResting (h : d.isResting m = true) (n : Nat) (w : ω) : advance n d w m = (d, w, m) := by
  cases n with
  | zero => rfl
  | succ n => rw [advance, if_pos h]

theorem isResting_of_ended {l : Loop ω} (hloop : d.loop = some l) (hrun : l.run ≠ .running) (m : Memory) :
    d.isResting m = true := by
  rw [isResting, hloop]
  simp [Loop.isResting, hrun]

theorem joinNoting_of_isResting (h : d.isResting m = true) (w : ω) :
    d.joinNoting w m = (d.collectNoting.1, d.collectNoting.2.1, d.collectNoting.2.2, w, m) := by
  rw [joinNoting, advance_of_isResting h]

/-- A loop that has been told to stop needs one turn for it. -/
theorem advance_told {l : Loop ω} (hloop : d.loop = some l) (hrun : l.run = .running)
    (hends : Loop.Ends (m.io l.params.io)) (n : Nat) (w : ω) :
    ∃ m', advance (n + 1) d w m = ({ d with loop := some { l with run := .finished } }, w, m') := by
  have hcheck := Loop.check_of_ends hends
  have hbusy : ¬ d.isResting m = true := by
    rw [isResting, hloop]
    simp only [Loop.isResting, hrun]
    show ¬ (false || Loop.check (m.io l.params.io).region == .rest) = true
    rw [hcheck]
    decide
  have hturn : d.turn w m =
      ({ d with loop := some { l with run := .finished } }, w, m.setIo l.params.io (m.io l.params.io)) := by
    rw [← turnAmong_id, turnAmong, hloop]
    simp only [Loop.turnAmong, hrun, hcheck]
    rfl
  refine ⟨m.setIo l.params.io (m.io l.params.io), ?_⟩
  rw [advance, if_neg hbusy, hturn]
  exact advance_of_isResting (isResting_of_ended rfl (show Run.finished ≠ .running by decide) _) n w

/-- **A device that joins a loop that was told to stop gets its callbacks back, or finds that it has crashed.** -/
theorem joinNoting_joined (ht : d.IsTold m) (w : ω) :
    d.Joined (d.joinNoting w m).1 (d.joinNoting w m).2.1 (d.joinNoting w m).2.2.1 := by
  cases hloop : d.loop with
  | none =>
    rw [joinNoting_of_isResting (by rw [isResting, hloop]), collectNoting_nobody hloop]
    exact .nobody hloop
  | some l =>
    cases hrun : l.run with
    | running =>
      obtain ⟨m', hadvance⟩ := advance_told hloop hrun (ht l hloop hrun) 999999 w
      rw [joinNoting, show patience = 999999 + 1 from rfl, hadvance]
      exact .returned hloop ⟨rfl, rfl, fun h => absurd hrun h⟩ rfl
    | finished =>
      rw [joinNoting_of_isResting (isResting_of_ended hloop (by rw [hrun]; decide) m),
        collectNoting_returned hloop (by rw [hrun]; decide)]
      exact .returned hloop (.refl l) hrun
    | crashed =>
      rw [joinNoting_of_isResting (isResting_of_ended hloop (by rw [hrun]; decide) m),
        collectNoting_crashed hloop hrun]
      exact .crashed hloop hrun

/-- What a device may do that is told of a phase. -/
inductive Followed (d : Device ω) : PlayState → List (Entry ω) → Except Fault Unit → Device ω → Prop
  | ignored {p : PlayState} (hp : p.joins = false) : Followed d p [] (.ok ()) d
  | ended {p : PlayState} {log : List (Entry ω)} {r : Except Fault Unit} {d' : Device ω} (hp : p.joins = true)
    (hp' : p ≠ .realtimeStarted) (h : d.Joined log r d') : Followed d p log r d'
  /-- The loop has crashed, and no other is begun. -/
  | broken {log : List (Entry ω)} {e : Fault} {d' : Device ω} (h : d.Joined log (.error e) d') :
    Followed d .realtimeStarted log (.error e) d'
  | unconfigured {log : List (Entry ω)} {d' : Device ω} (h : d.Joined log (.ok ()) d') (hparams : d'.params = none) :
    Followed d .realtimeStarted log (.error .notConfigured) d'
  | begun {log : List (Entry ω)} {d' : Device ω} {p : Parameters} {hooks : Hooks ω} (h : d.Joined log (.ok ()) d')
    (hparams : d'.params = some p) (hhooks : d'.hooks = some hooks) :
    Followed d .realtimeStarted (log ++ [.begun p hooks]) (.ok ())
      { d' with hooks := none, loop := some (.start p hooks), cycles := 0, asleep := 0 }

end Device

/-! ### Who has the callbacks -/

/-- Who has the callbacks: the device holds them, or they are lent to a loop. -/
inductive Custody (ω : Type) where
  | held (h : Hooks ω)
  | lent (p : Parameters) (h : Hooks ω)

/-- The loops that have callbacks. -/
def Custody.loops : Custody ω → Nat
  | held _ => 0
  | lent _ _ => 1

theorem Custody.loops_le (c : Custody ω) : c.loops ≤ 1 := by
  cases c with
  | held => exact Nat.zero_le _
  | lent => exact Nat.le_refl _

/-- How the callbacks pass from hand to hand.  Those of a loop that has crashed are gone, and there are none then. -/
inductive Custody.Passes : Custody ω → Entry ω → Custody ω → Prop
  | begun (p : Parameters) (h : Hooks ω) : Passes (.held h) (.begun p h) (.lent p h)
  | returned {l : Loop ω} (hrun : l.run = .finished) : Passes (.lent l.params l.hooks) (.joined l) (.held l.hooks)
  | crashed {l : Loop ω} (hrun : l.run = .crashed) : Passes (.lent l.params l.hooks) (.joined l) (.held {})

/-- Ledgers in which the callbacks pass from hand to hand, and who has them in the end. -/
inductive Kept (h₀ : Hooks ω) : List (Entry ω) → Custody ω → Prop
  | nil : Kept h₀ [] (.held h₀)
  | concat {log : List (Entry ω)} {c c' : Custody ω} {e : Entry ω} (h : Kept h₀ log c) (hpass : c.Passes e c') :
    Kept h₀ (log ++ [e]) c'

/-- A device has the callbacks, or a loop to which they are lent. -/
def Device.Fits (d : Device ω) : Custody ω → Prop
  | .held h => d.hooks = some h ∧ d.loop = none
  | .lent p h => d.hooks = none ∧ ∃ l, d.loop = some l ∧ l.params = p ∧ l.hooks = h

section

variable {h₀ : Hooks ω} {log more : List (Entry ω)} {c : Custody ω}

/-- **One loop at most has the callbacks.** -/
theorem Kept.begunIn_eq (h : Kept h₀ log c) : begunIn log = joinedIn log + c.loops := by
  induction h with
  | nil => rfl
  | concat h hpass ih =>
    rw [begunIn, joinedIn] at ih
    rw [begunIn, joinedIn, List.countP_append, List.countP_append, ih]
    cases hpass <;> rfl

/-- What has been kept so far was kept all the time. -/
theorem Kept.of_prefix (h : Kept h₀ log c) {log' : List (Entry ω)} (hp : log' <+: log) : ∃ c', Kept h₀ log' c' := by
  induction h with
  | nil =>
    obtain rfl := List.prefix_nil.1 hp
    exact ⟨_, .nil⟩
  | concat h hpass ih =>
    rcases List.prefix_concat_iff.1 hp with rfl | hp
    · exact ⟨_, .concat h hpass⟩
    · exact ih hp

namespace Device

variable {d d' : Device ω} {p : PlayState} {r : Except Fault Unit} {w : ω} {m : Memory}

theorem Fits.hooks_isSome_iff (hf : d.Fits c) : d.hooks.isSome = true ↔ c.loops = 0 := by
  cases c with
  | held h => simp [hf.1, Custody.loops]
  | lent p h => simp [hf.1, Custody.loops]

theorem Fits.loop_isSome_iff (hf : d.Fits c) : d.loop.isSome = true ↔ c.loops = 1 := by
  cases c with
  | held h => simp [hf.2, Custody.loops]
  | lent p h =>
    obtain ⟨-, l, hl, -⟩ := hf
    simp [hl, Custody.loops]

theorem GoesOn.fits (hg : d.GoesOn d') (hf : d.Fits c) : d'.Fits c := by
  obtain ⟨hhooks, hloop⟩ := hg
  cases c with
  | held h =>
    rw [hf.2] at hloop
    refine ⟨hhooks.trans hf.1, ?_⟩
    cases hl' : d'.loop with
    | none => rfl
    | some l' =>
      rw [hl'] at hloop
      cases hloop
  | lent p h =>
    obtain ⟨hnone, l, hl, rfl, rfl⟩ := hf
    rw [hl] at hloop
    cases hl' : d'.loop with
    | none =>
      rw [hl'] at hloop
      cases hloop
    | some l' =>
      rw [hl'] at hloop
      obtain ⟨hgoes⟩ := hloop
      exact ⟨hhooks.trans hnone, l', hl', hgoes.params_eq, hgoes.hooks_eq⟩

/-- A device that joins its loop reports a crash exactly when the loop has crashed. -/
theorem Joined.crash (hj : d.Joined log r d') :
    (r = .error .crashed ∧ ∃ l, d.loop = some l ∧ l.run = .crashed ∧ log = [.joined l] ∧ d'.loop = none) ∨
      (r = .ok () ∧ (∀ l, d.loop = some l → l.run ≠ .crashed) ∧ ∀ l, .joined l ∈ log → l.run = .finished) := by
  cases hj with
  | nobody hl => exact .inr ⟨rfl, fun l hl' => absurd (hl.symm.trans hl') (by simp), by simp⟩
  | crashed hl hrun => exact .inl ⟨rfl, _, hl, hrun, rfl, rfl⟩
  | returned hl hgoes hrun =>
    refine .inr ⟨rfl, fun l hl' hcrash => ?_, fun l hmem => ?_⟩
    · obtain rfl := Option.some.inj (hl.symm.trans hl')
      have hsame := hgoes.ended (by rw [hcrash]; decide)
      rw [hsame, hcrash] at hrun
      exact absurd hrun (by decide)
    · cases List.mem_singleton.1 hmem
      exact hrun

/-- A device that joins its loop has the callbacks that it had, or that the loop gives back. -/
theorem Joined.returns (hj : d.Joined log (.ok ()) d') {h : Hooks ω} (hh : d'.hooks = some h) :
    (d.loop = none → d.hooks = some h) ∧ ∀ l, d.loop = some l → h = l.hooks := by
  cases hj with
  | nobody hl => exact ⟨fun _ => hh, fun l hl' => absurd (hl.symm.trans hl') (by simp)⟩
  | returned hl hgoes =>
    refine ⟨fun hl' => absurd (hl.symm.trans hl') (by simp), fun l hl' => ?_⟩
    obtain rfl := Option.some.inj (hl.symm.trans hl')
    obtain rfl := Option.some.inj hh
    exact hgoes.hooks_eq

theorem Joined.params_eq (hj : d.Joined log r d') : d'.params = d.params := by
  cases hj <;> rfl

/-- **A device that has joined its loop holds the callbacks.** -/
theorem Joined.kept (hj : d.Joined more r d') (hk : Kept h₀ log c) (hf : d.Fits c) :
    ∃ h, Kept h₀ (log ++ more) (.held h) ∧ d'.Fits (.held h) := by
  cases c with
  | held h =>
    cases hj with
    | nobody =>
      rw [List.append_nil]
      exact ⟨h, hk, hf⟩
    | returned hl | crashed hl => exact absurd (hl.symm.trans hf.2) (by simp)
  | lent p h =>
    obtain ⟨hnone, l, hl, rfl, rfl⟩ := hf
    cases hj with
    | nobody hl' => exact absurd (hl.symm.trans hl') (by simp)
    | returned hl' hgoes hrun =>
      obtain rfl := Option.some.inj (hl.symm.trans hl')
      rw [← hgoes.params_eq, ← hgoes.hooks_eq] at hk
      exact ⟨_, .concat hk (.returned hrun), rfl, rfl⟩
    | crashed hl' hrun =>
      obtain rfl := Option.some.inj (hl.symm.trans hl')
      exact ⟨_, .concat hk (.crashed hrun), rfl, rfl⟩

/-- **A device that is told of a phase never finds the callbacks lost.** -/
theorem followNoting_followed (hk : Kept h₀ log c) (hf : d.Fits c) (ht : p.joins = true → d.IsTold m) (w : ω) :
    d.Followed p (d.followNoting p w m).1 (d.followNoting p w m).2.1 (d.followNoting p w m).2.2.1 := by
  cases p with
  | realtimePaused | realtimeResumed | renderStarted => exact .ignored rfl
  | realtimeEnded | renderEnded | stopped => exact .ended rfl (by decide) (joinNoting_joined (ht rfl) w)
  | realtimeStarted =>
    have hj := joinNoting_joined (ht rfl) w
    rw [followNoting]
    generalize d.joinNoting w m = t at hj
    obtain ⟨log, r, d', w', m'⟩ := t
    cases r with
    | error e => exact .broken hj
    | ok =>
      obtain ⟨h, -, hhooks, -⟩ := hj.kept hk hf
      dsimp only at hj ⊢
      obtain hparams | ⟨p, hparams⟩ := Option.eq_none_or_eq_some d'.params
      · rw [spawnNoting_unconfigured hparams, List.append_nil]
        exact .unconfigured hj hparams
      · rw [spawnNoting_begun hparams hhooks]
        exact .begun hj hparams hhooks

theorem Followed.kept (hw : d.Followed p more r d') (hk : Kept h₀ log c) (hf : d.Fits c) :
    ∃ c', Kept h₀ (log ++ more) c' ∧ d'.Fits c' := by
  cases hw with
  | ignored =>
    rw [List.append_nil]
    exact ⟨c, hk, hf⟩
  | ended _ _ h | broken h | unconfigured h =>
    obtain ⟨h, hk', hf'⟩ := h.kept hk hf
    exact ⟨_, hk', hf'⟩
  | begun h hparams hhooks =>
    obtain ⟨h, hk', hf'⟩ := h.kept hk hf
    obtain rfl := Option.some.inj (hf'.1.symm.trans hhooks)
    rw [← List.append_assoc]
    exact ⟨_, .concat hk' (.begun _ h), rfl, _, rfl, rfl, rfl⟩

/-- **A crash is reported by the call that joins the loop, which begins no other.**  Without one, a loop is begun on a
start, as soon as there are parameters, with the callbacks that the device had or was given back. -/
theorem Followed.crash (hw : d.Followed p log r d') (hp : p.joins = true) :
    (r = .error .crashed ∧ ∃ l, d.loop = some l ∧ l.run = .crashed ∧ log = [.joined l] ∧ d'.loop = none) ∨
      (r ≠ .error .crashed ∧ r ≠ .error .hooksLost ∧ (∀ l, d.loop = some l → l.run ≠ .crashed) ∧
        (∀ l, .joined l ∈ log → l.run = .finished) ∧
        (p = .realtimeStarted → ∀ q, d.params = some q →
          r = .ok () ∧ ∃ h, .begun q h ∈ log ∧ d'.loop = some (.start q h) ∧
            (d.loop = none → d.hooks = some h) ∧ ∀ l, d.loop = some l → h = l.hooks)) := by
  cases hw with
  | ignored hp' => exact absurd (hp.symm.trans hp') (by decide)
  | ended _ hp' h =>
    rcases h.crash with hcrash | ⟨rfl, hlive, hdone⟩
    · exact .inl hcrash
    · exact .inr ⟨nofun, nofun, hlive, hdone, fun h => absurd h hp'⟩
  | broken h =>
    rcases h.crash with hcrash | ⟨hok, -, -⟩
    · exact .inl hcrash
    · cases hok
  | unconfigured h hnone =>
    rcases h.crash with ⟨hcrash, -⟩ | ⟨-, hlive, hdone⟩
    · cases hcrash
    · exact .inr ⟨nofun, nofun, hlive, hdone, fun _ q hq =>
        absurd ((h.params_eq.symm.trans hnone).symm.trans hq) (by simp)⟩
  | begun h hparams hhooks =>
    rcases h.crash with ⟨hcrash, -⟩ | ⟨-, hlive, hdone⟩
    · cases hcrash
    refine .inr ⟨nofun, nofun, hlive, fun l hl => ?_, fun _ q hq => ?_⟩
    · rcases List.mem_append.1 hl with hl | hl
      · exact hdone l hl
      · cases List.mem_singleton.1 hl
    · obtain rfl := Option.some.inj ((h.params_eq.symm.trans hparams).symm.trans hq)
      exact ⟨rfl, _, List.mem_append_right _ (List.mem_singleton.2 rfl), rfl, h.returns hhooks⟩

theorem Followed.params_eq (hw : d.Followed p log r d') : d'.params = d.params := by
  cases hw with
  | ignored => rfl
  | ended _ _ h | broken h | unconfigured h | begun h => exact h.params_eq

end Device
end

/-! ### Runs -/

/-- What happens to a device. -/
inductive Act (ω : Type) where
  /-- It is configured. -/
  | configure (p : Parameters)
  /-- It is told of a phase. -/
  | follow (p : PlayState)
  /-- Its loop has a turn, among others. -/
  | turn (others : Gap → Io → Io)
  /-- The clock ticks. -/
  | tick
  /-- Others do anything to the memory, and to the world of the callbacks. -/
  | meanwhile (f : ω → Memory → ω × Memory)

namespace Act

/-- The device joins its loop. -/
def joins : Act ω → Bool
  | follow p => p.joins
  | _ => false

/-- The parameters that are accepted. -/
def accepted? : Act ω → Option Parameters
  | configure p => if Device.isUsable p then some p else none
  | _ => none

end Act

namespace Course

def act (s : Course ω) : Act ω → Course ω
  | .configure p => { s with device := (s.device.configure p).2 }
  | .follow p =>
    let (_, device, world, memory) := s.device.follow p s.world s.memory
    ⟨device, world, memory⟩
  | .turn others =>
    let (device, world, memory) := s.device.turnAmong others s.world s.memory
    ⟨device, world, memory⟩
  | .tick =>
    let (device, world, memory) := s.device.tick s.world s.memory
    ⟨device, world, memory⟩
  | .meanwhile f =>
    let (world, memory) := f s.world s.memory
    { s with world := world, memory := memory }

/-- What the device answers. -/
def answer (s : Course ω) : Act ω → Except Fault Unit
  | .configure p => (s.device.configure p).1
  | .follow p => (s.device.follow p s.world s.memory).1
  | _ => .ok ()

/-- Several acts. -/
def acts (s : Course ω) (xs : List (Act ω)) : Course ω := xs.foldl act s

/-- The entries that the device makes. -/
def entries (s : Course ω) : Act ω → List (Entry ω)
  | .follow p => (s.device.followNoting p s.world s.memory).1
  | _ => []

/-- The ledger of several acts. -/
def ledger (s : Course ω) : List (Act ω) → List (Entry ω)
  | [] => []
  | x :: xs => s.entries x ++ (s.act x).ledger xs

/-- Every loop that is joined has been told to stop. -/
def Tells (s : Course ω) : List (Act ω) → Prop
  | [] => True
  | x :: xs => (x.joins = true → s.device.IsTold s.memory) ∧ (s.act x).Tells xs

section

variable {h₀ : Hooks ω} {log : List (Entry ω)} {c : Custody ω} {s : Course ω} {x : Act ω}

theorem acts_concat (s : Course ω) (xs : List (Act ω)) (x : Act ω) : s.acts (xs ++ [x]) = (s.acts xs).act x :=
  List.foldl_concat ..

theorem tells_concat {xs : List (Act ω)} (hs : s.Tells xs)
    (hx : x.joins = true → (s.acts xs).device.IsTold (s.acts xs).memory) : s.Tells (xs ++ [x]) := by
  induction xs generalizing s with
  | nil => exact ⟨hx, trivial⟩
  | cons y ys ih => exact ⟨hs.1, ih hs.2 hx⟩

/-- Unless the device joins its loop, it goes on, and the device makes no entry. -/
theorem act_quiet (hx : x.joins = false) :
    s.device.GoesOn (s.act x).device ∧ s.entries x = [] ∧ s.answer x ≠ .error .crashed ∧
      s.answer x ≠ .error .hooksLost := by
  have hsame := Device.GoesOn.refl s.device
  have hok (e : Fault) : (.ok () : Except Fault Unit) ≠ .error e := by simp
  cases x with
  | configure p =>
    rw [act, answer, Device.configure]
    split <;> exact ⟨⟨rfl, hsame.loop⟩, rfl, by simp, by simp⟩
  | follow p =>
    cases p with
    | realtimePaused | realtimeResumed | renderStarted => exact ⟨hsame, rfl, hok _, hok _⟩
    | _ => cases hx
  | turn others => exact ⟨(s.device.turnAmong_goesOn others s.world s.memory).1, rfl, hok _, hok _⟩
  | tick => exact ⟨(s.device.tick_goesOn s.world s.memory).1, rfl, hok _, hok _⟩
  | meanwhile f => exact ⟨hsame, rfl, hok _, hok _⟩

theorem followed {p : PlayState} (hk : Kept h₀ log c) (hf : s.device.Fits c)
    (ht : p.joins = true → s.device.IsTold s.memory) :
    s.device.Followed p (s.entries (.follow p)) (s.answer (.follow p)) (s.act (.follow p)).device := by
  have hw := Device.followNoting_followed hk hf ht s.world
  rw [Device.followNoting_snd] at hw
  exact hw

theorem act_params (hk : Kept h₀ log c) (hf : s.device.Fits c) (ht : x.joins = true → s.device.IsTold s.memory) :
    (s.act x).device.params = x.accepted?.or s.device.params := by
  cases x with
  | configure p =>
    rw [act, Device.configure, Act.accepted?]
    split <;> rfl
  | follow p => exact (followed hk hf ht).params_eq
  | turn others => exact (s.device.turnAmong_goesOn others s.world s.memory).2
  | tick => exact (s.device.tick_goesOn s.world s.memory).2
  | meanwhile f => rfl

/-- **Whatever happens, the callbacks pass from hand to hand**, and the device knows who has them. -/
theorem act_kept (hk : Kept h₀ log c) (hf : s.device.Fits c) (ht : x.joins = true → s.device.IsTold s.memory) :
    ∃ c', Kept h₀ (log ++ s.entries x) c' ∧ (s.act x).device.Fits c' := by
  cases hx : x.joins with
  | false =>
    obtain ⟨hgoes, hnone, -⟩ := act_quiet (s := s) hx
    rw [hnone, List.append_nil]
    exact ⟨c, hk, hgoes.fits hf⟩
  | true =>
    cases x with
    | follow p => exact (followed hk hf ht).kept hk hf
    | _ => cases hx

/-- **So it is in every run**, and the parameters are those that were accepted last. -/
theorem acts_kept {xs : List (Act ω)} (ht : s.Tells xs) (hk : Kept h₀ log c) (hf : s.device.Fits c) :
    (∃ c', Kept h₀ (log ++ s.ledger xs) c' ∧ (s.acts xs).device.Fits c') ∧
      (s.acts xs).device.params = (xs.filterMap Act.accepted?).getLast?.or s.device.params := by
  induction xs generalizing s log c with
  | nil =>
    rw [ledger, List.append_nil]
    exact ⟨⟨c, hk, hf⟩, rfl⟩
  | cons x xs ih =>
    obtain ⟨c', hk', hf'⟩ := act_kept hk hf ht.1
    obtain ⟨hkept, hparams⟩ := ih ht.2 hk' hf'
    refine ⟨by rw [ledger, ← List.append_assoc]; exact hkept, hparams.trans ?_⟩
    rw [act_params hk hf ht.1, List.filterMap_cons]
    cases x.accepted? with
    | none => rfl
    | some p =>
      rw [List.getLast?_cons]
      cases (xs.filterMap Act.accepted?).getLast? <;> rfl

end
end Course

/-- **A device never loses its callbacks.**  It is created with some, and then called, while its loop has its turns,
whose callbacks may crash, and others do anything to the memory and the world.  Only, whenever it joins a loop that
still runs, that loop has been told to stop.

* The device knows who has the callbacks: itself, exactly if every loop that was begun was joined, or the one loop
  that was not.  There is never more than one, not even within a call.
* They pass from hand to hand: a loop is begun with those that the device was created with, or that the last loop
  gave back when it had finished.
* Whatever happens next, the device does not find the callbacks lost.  It reports a crash exactly if it joins a loop
  that has crashed, and then begins none.  Until it is joined, a loop that has ended stays as it is.
* A start on which no crash is reported begins a loop, with the parameters that were accepted last, and with the
  callbacks that the device had or that the last loop gives back. -/
theorem lending_lawful (realtimeClock : Bool) (h₀ : Hooks ω) (w : ω) (m : Memory) {xs : List (Act ω)}
    (htold : Course.Tells ⟨.create realtimeClock h₀, w, m⟩ xs) :
    let created : Course ω := ⟨.create realtimeClock h₀, w, m⟩
    let s := created.acts xs
    let log := created.ledger xs
    (s.device.hooks.isSome = true ↔ begunIn log = joinedIn log) ∧
      (s.device.loop.isSome = true ↔ begunIn log = joinedIn log + 1) ∧
      (∀ log', log' <+: log → joinedIn log' ≤ begunIn log' ∧ begunIn log' ≤ joinedIn log' + 1) ∧
      (∃ c, Kept h₀ log c ∧ s.device.Fits c) ∧
      s.device.params = (xs.filterMap Act.accepted?).getLast? ∧
      ∀ x : Act ω, (x.joins = true → s.device.IsTold s.memory) →
        let s' := s.act x
        s.answer x ≠ .error .hooksLost ∧
        (s.answer x = .error .crashed ↔ x.joins = true ∧ ∃ l, s.device.loop = some l ∧ l.run = .crashed) ∧
        (s.answer x = .error .crashed → s'.device.loop = none ∧ ∃ l, s.entries x = [.joined l]) ∧
        (∀ l, .joined l ∈ s.entries x → l.run ≠ .running ∧ (l.run = .crashed ↔ s.answer x = .error .crashed)) ∧
        (x.joins = false → s.entries x = [] ∧
          ∀ l, s.device.loop = some l → l.run ≠ .running → s'.device.loop = some l) ∧
        (x = .follow .realtimeStarted → (∀ l, s.device.loop = some l → l.run ≠ .crashed) →
          ∀ p, s.device.params = some p →
            s.answer x = .ok () ∧ ∃ h, .begun p h ∈ s.entries x ∧ s'.device.loop = some (.start p h) ∧
              (s.device.loop = none → s.device.hooks = some h) ∧ ∀ l, s.device.loop = some l → h = l.hooks) := by
  intro created s log
  obtain ⟨⟨c, hk, hf⟩, hparams⟩ := Course.acts_kept htold Kept.nil (c := .held h₀) ⟨rfl, rfl⟩
  have hcount : begunIn log = joinedIn log + c.loops := hk.begunIn_eq
  refine ⟨?_, ?_, fun log' hp => ?_, ⟨c, hk, hf⟩, hparams.trans Option.or_none, fun x ht => ?_⟩
  · rw [hf.hooks_isSome_iff, hcount]
    omega
  · rw [hf.loop_isSome_iff, hcount]
    omega
  · obtain ⟨c', hk'⟩ := hk.of_prefix hp
    have hcount' := hk'.begunIn_eq
    have hle := c'.loops_le
    omega
  · intro s'
    cases hx : x.joins with
    | false =>
      obtain ⟨hgoes, hnone, hcrash, hlost⟩ := Course.act_quiet (s := s) hx
      rw [hnone]
      exact ⟨hlost, ⟨fun h => absurd h hcrash, nofun⟩, fun h => absurd h hcrash, fun l hl => absurd hl List.not_mem_nil,
        fun _ => ⟨rfl, fun l hl hrun => hgoes.ended hl hrun⟩, by rintro rfl; cases hx⟩
    | true =>
      cases x with
      | follow p =>
        rcases (Course.followed hk hf ht).crash hx with
          ⟨hr, l, hl, hrun, hentries, hnone⟩ | ⟨hcrash, hlost, hlive, hdone, hbegun⟩
        · rw [hr, hentries]
          refine ⟨nofun, ⟨fun _ => ⟨rfl, l, hl, hrun⟩, fun _ => rfl⟩, fun _ => ⟨hnone, l, rfl⟩, fun l' hl' => ?_, nofun,
            fun _ hlive => absurd hrun (hlive l hl)⟩
          cases List.mem_singleton.1 hl'
          rw [hrun]
          exact ⟨by decide, by simp⟩
        · refine ⟨hlost, ⟨fun h => absurd h hcrash, fun ⟨_, l, hl, hrun⟩ => absurd hrun (hlive l hl)⟩,
            fun h => absurd h hcrash, fun l hl => ?_, nofun, fun h _ => hbegun (Act.follow.inj h)⟩
          rw [hdone l hl]
          exact ⟨by decide, nofun, fun h => absurd h hcrash⟩
      | _ => cases hx

/-- The sink of a loop crashes: the next start reports it and begins no loop, and the one after that does. -/
theorem lending_lawful_crash :
    let p : Parameters := ⟨44100, 1, 1, 2, 256, false, false, ⟨0, 0⟩⟩
    let h : Hooks Unit := { sink := some fun _ _ w io => ⟨w, io, true⟩ }
    let perform : Act Unit := .meanwhile fun w m => (w, m.modifyRegion 0 fun r => r.set .performing 1)
    let start : Act Unit := .follow .realtimeStarted
    let created : Course Unit := ⟨.create false h, (), (Memory.allocIo {} 8 4).2⟩
    let xs : List (Act Unit) := [.configure p, start, perform, .turn fun _ => id]
    created.Tells (xs ++ [start]) ∧
      begunIn (created.ledger xs) = joinedIn (created.ledger xs) + 1 ∧
      (created.acts xs).answer start = .error .crashed ∧ (created.acts (xs ++ [start])).device.loop = none ∧
      (created.acts (xs ++ [start])).answer start = .ok () := by
  intro p h perform start created xs
  have hcrashed : ∃ l, (created.acts xs).device.loop = some l ∧ l.run = .crashed := ⟨_, rfl, rfl⟩
  have htold : (created.acts xs).device.IsTold (created.acts xs).memory := by
    obtain ⟨l, hl, hrun⟩ := hcrashed
    exact Device.isTold_of_ended hl (by rw [hrun]; decide) _
  have hfirst : created.Tells xs :=
    ⟨by rintro ⟨⟩, fun _ => Device.isTold_of_none rfl _, by rintro ⟨⟩, by rintro ⟨⟩, trivial⟩
  have hsecond : created.Tells (xs ++ [start]) := Course.tells_concat hfirst fun _ => htold
  dsimp only [created] at hcrashed htold hfirst hsecond ⊢
  obtain ⟨-, hloop, -, -, -, hnext⟩ := lending_lawful false h () (Memory.allocIo {} 8 4).2 hfirst
  obtain ⟨-, hcrash, hnone, -⟩ := hnext start fun _ => htold
  have hreport := hcrash.2 ⟨rfl, hcrashed⟩
  have hgone := (hnone hreport).1
  rw [← Course.acts_concat] at hgone
  obtain ⟨-, -, -, -, hparams, hnext'⟩ := lending_lawful false h () (Memory.allocIo {} 8 4).2 hsecond
  obtain ⟨-, -, -, -, -, hbegins⟩ := hnext' start fun _ => Device.isTold_of_none hgone _
  obtain ⟨hbegun, -⟩ := hbegins rfl (fun l hl => absurd (hgone.symm.trans hl) (by simp)) p (hparams.trans rfl)
  refine ⟨hsecond, hloop.1 ?_, hreport, hgone, hbegun⟩
  obtain ⟨l, hl, -⟩ := hcrashed
  exact Option.isSome_of_eq_some hl

end Render
end SynthControl
