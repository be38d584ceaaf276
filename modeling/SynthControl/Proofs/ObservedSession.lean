import SynthControl.Proofs.Accord
import SynthControl.Proofs.Runs

/-!
# Performances with an audience

A session with its client and an audience.  Everything that anybody does is a move, so that the same moves can be
made with another session: the client takes something on or goes on with it, worker, router and dispatcher take
their turns, and somebody may be at the shared memory or at the listeners.

* `Move`, `Ensemble.move` — a move, and what there is to see of it; answers that tell of files are not shown;
* `move_eq_or_step` — **the moves of the parties are the steps of the ensemble**;
* `ObservedSession`, `ObservedSession.act`, `ObservedSession.sights` — what there is to see of some moves, if samples
  are heard only once a performance has begun; `ObservedSession.view` — what there is to see at any time;
* `Ensemble.Like.move` — **ensembles that are alike stay so in every move, and show the same**;
* `ObservedSession.Like.run` — **and so they do in every run**; the dispatcher of the first has also to hand on the
  lines that were reported before (`Move.skipDispatches`).
-/

namespace SynthControl

/-! ### Moves -/

/-- What a conversation is about. -/
inductive Wish where
  | start
  | stop
  | reset
  deriving DecidableEq, Repr

/-- The wish with which a conversation began. -/
def Lifecycle.wish : Lifecycle → Wish
  | .arm | .sendStart _ _ _ | .awaitStart _ _ | .disarm _ | .awaitStarted _ _ => .start
  | .requestStop .stop | .awaitStopped .stop _ => .stop
  | .checkReset | .requestStop .reset | .awaitStopped .reset _ | .sendReset | .awaitReset _ | .returnToStopped _ =>
    .reset

/-- A move of the client, of one of the others, or of somebody at the shared memory. -/
inductive Move (ω : Type) where
  | start
  | stop
  | reset
  | call (op : Operation) (args : List Value)
  | pause
  | resume
  | sendMidi (m : Midi.Message)
  /-- The client goes on with what it is about; a wait for the boundary of a cycle may be over. -/
  | goOn (expired : Bool)
  | worker (notified : Bool)
  | router
  | dispatcher
  /-- Somebody reads from the output ring. -/
  | hear (count : Nat)
  /-- Somebody writes into the input ring. -/
  | feed (samples : List Float)
  /-- Somebody writes into the region. -/
  | write (f : Region → Region)
  /-- Somebody does something with the listeners. -/
  | listen (f : EventBus ω → EventBus ω)

/-- The dispatcher moves. -/
def Move.isDispatch {ω : Type} : Move ω → Bool
  | .dispatcher => true
  | _ => false

/-- A move of one of the parties, and of nobody at the memory or the listeners. -/
def Move.isOwn {ω : Type} : Move ω → Bool
  | .sendMidi _ | .hear _ | .feed _ | .write _ | .listen _ => false
  | _ => true

/-- What there is to see of a move. -/
inductive Sight where
  | status (wish : Wish) (answer : Except Error Int)
  /-- The answer to a call, unless it tells something of the files. -/
  | result (answer : Option (Except Error (Option Value)))
  | told (yes : Bool)
  | samples (heard : List Float)

namespace Ensemble

variable {ω : Type}

/-- A free client takes something on. -/
def takeOn (k : Client) (v : Ensemble Unit Sine ω) : Ensemble Unit Sine ω :=
  match v.client with
  | .free => { v with client := k }
  | _ => v

/-- A free client does something at once. -/
def atOnce (f : Session Unit Sine ω → Bool × Session Unit Sine ω) (v : Ensemble Unit Sine ω) :
    Option Sight × Ensemble Unit Sine ω :=
  match v.client with
  | .free => (some (.told (f v.session).1), { v with session := (f v.session).2 })
  | _ => (none, v)

/-- The client goes on with what it is about. -/
def goOn (expired : Bool) (v : Ensemble Unit Sine ω) : Option Sight × Ensemble Unit Sine ω :=
  match v.client with
  | .free => (none, v)
  | .lifecycle task =>
    match Lifecycle.turn v.session task with
    | .blocked => (none, v)
    | .goesOn task s => (none, ⟨s, .lifecycle task⟩)
    | .ends answer s => (some (.status task.wish answer), ⟨s, .free⟩)
  | .call task =>
    match Invocation.turn expired v.session task with
    | .blocked => (none, v)
    | .goesOn task s => (none, ⟨s, .call task⟩)
    | .ends answer s => (some (.result (if v.client.tellsFiles then none else some answer)), ⟨s, .free⟩)

/-- Pause the performance, before anything else is handed on. -/
def pauseNow (s : Session Unit Sine ω) : Bool × Session Unit Sine ω :=
  ((s.stage.pause Outlets.surroundings).1, s.setStage (s.stage.pause Outlets.surroundings).2)

/-- Resume the performance, before anything else is handed on. -/
def resumeNow (s : Session Unit Sine ω) : Bool × Session Unit Sine ω :=
  ((s.stage.resume Outlets.surroundings).1, s.setStage (s.stage.resume Outlets.surroundings).2)

/-- Read from the output ring. -/
def readOutput (count : Nat) (io : Io) : List Float × Io :=
  ((io.bank.audio.output.read count).1, { io with bank.audio.output := (io.bank.audio.output.read count).2 })

/-- Write into the input ring. -/
def writeInput (samples : List Float) (io : Io) : Unit × Io :=
  ((), { io with bank.audio.input := io.bank.audio.input.write samples })

/-- A move; samples are only seen if they are `heard`. -/
def move (heard : Bool) (v : Ensemble Unit Sine ω) : Move ω → Option Sight × Ensemble Unit Sine ω
  | .start => (none, v.takeOn (.lifecycle .arm))
  | .stop => (none, v.takeOn (.lifecycle (.requestStop .stop)))
  | .reset => (none, v.takeOn (.lifecycle .checkReset))
  | .call op args => (none, v.takeOn (.call (.look op args)))
  | .pause => v.atOnce pauseNow
  | .resume => v.atOnce resumeNow
  | .sendMidi m => v.atOnce (Session.sendMidi m)
  | .goOn expired => v.goOn expired
  | .worker notified => (none, { v with session.link := v.session.link.turn Sine.engine notified })
  | .router => (none, { v with session.link := v.session.link.route })
  | .dispatcher => (none, { v with session := v.session.dispatch })
  | .hear count =>
    (some (.samples (if heard then (v.session.onIo (readOutput count)).1 else [])),
      { v with session := (v.session.onIo (readOutput count)).2 })
  | .feed samples => (none, { v with session := (v.session.onIo (writeInput samples)).2 })
  | .write f => (none, { v with session := v.session.onRegion f })
  | .listen f => (none, { v with session.outlets.bus := f v.session.outlets.bus })

/-- **A move of the client, the worker, the router or the dispatcher is a step of the ensemble**, if it is any. -/
theorem move_eq_or_step (heard : Bool) (v : Ensemble Unit Sine ω) {m : Move ω} (hm : m.isOwn = true) :
    (v.move heard m).2 = v ∨ Step Sine.engine v (v.move heard m).2 := by
  obtain ⟨s, k⟩ := v
  cases m with
  | sendMidi | hear | feed | write | listen => cases hm
  | worker notified => exact .inr (.inr (.worker notified))
  | router => exact .inr (.inr .router)
  | dispatcher => exact .inr (.inr .dispatcher)
  | goOn expired =>
    rw [move, goOn]
    cases k with
    | free => exact .inl rfl
    | lifecycle task =>
      dsimp only
      cases hturn : Lifecycle.turn s task with
      | blocked => exact .inl rfl
      | goesOn => exact .inr (.inr (.turn hturn))
      | ends => exact .inr (.inr (.ends hturn))
    | call task =>
      dsimp only
      cases hturn : Invocation.turn expired s task with
      | blocked => exact .inl rfl
      | goesOn => exact .inr (.inr (.invoke expired hturn))
      | ends => exact .inr (.inr (.returns expired hturn))
  | _ =>
    -- a client that is about something takes nothing else on
    cases k with
    | free => exact .inr (.inl (by constructor))
    | lifecycle | call => exact .inl rfl

end Ensemble

namespace Ensemble.Like

variable {ω : Type} {config : Config} {ρ κ u : Nat} {old : List String} {heard : Bool}
  {v' v : Ensemble Unit Sine ω} {s' s s₁' s₁ : Session Unit Sine ω}

theorem raise (h : Ensemble.Like config ρ κ u old heard v' v) :
    Ensemble.Like config ρ κ u old (heard || v.session.link.bench.active?.isSome) v' v := by
  rw [h.session.bench.heard_eq]
  exact h

/-- The sessions change in what has to do neither with the exchange nor with the engines. -/
theorem withSession {old₁ : List String} (h : Ensemble.Like config ρ κ u old heard v' v)
    (hs : Session.Like config ρ κ old₁ heard s₁' s₁)
    (hx' : s₁'.link.exchange = v'.session.link.exchange) (hx : s₁.link.exchange = v.session.link.exchange)
    (he' : s₁'.link.bench.hosted = v'.session.link.bench.hosted)
    (he : s₁.link.bench.hosted = v.session.link.bench.hosted) :
    Ensemble.Like config ρ κ u old₁ heard { v' with session := s₁' } { v with session := s₁ } := by
  obtain ⟨p', p, hb', hb, hlike, hexp, hren⟩ := h.post
  refine ⟨hs, h.client, hx' ▸ hx ▸ h.exchange, p', p, hx' ▸ hb', hx ▸ hb, hlike, hexp, fun hr => ?_⟩
  obtain ⟨⟨f', hf'⟩, f, hf⟩ := hren hr
  exact ⟨⟨f', he'.trans hf'⟩, f, he.trans hf⟩

theorem takeOn (h : Ensemble.Like config ρ κ u old heard v' v) {k : Client} (hk : k.Expects .empty)
    (hr : ¬ k.Renews .empty) (hshift : k.shift ρ κ u = k) :
    Ensemble.Like config ρ κ u old heard (v'.takeOn k) (v.takeOn k) := by
  obtain ⟨s, j⟩ := v
  obtain ⟨s', j'⟩ := v'
  obtain rfl : j' = j.shift ρ κ u := h.client
  cases j with
  | free =>
    have hafter := h.turnTo k (fun _ => id) h.session rfl rfl hk hr
    rw [hshift] at hafter
    exact hafter
  | lifecycle task => exact h
  | call task => exact h

theorem atOnce (h : Ensemble.Like config ρ κ u old heard v' v) (f : Session Unit Sine ω → Bool × Session Unit Sine ω)
    (heq : (f v'.session).1 = (f v.session).1)
    (hafter : Ensemble.Like config ρ κ u old heard { v' with session := (f v'.session).2 }
      { v with session := (f v.session).2 }) :
    (v'.atOnce f).1 = (v.atOnce f).1 ∧ Ensemble.Like config ρ κ u old heard (v'.atOnce f).2 (v.atOnce f).2 := by
  obtain ⟨s, j⟩ := v
  obtain ⟨s', j'⟩ := v'
  obtain rfl : j' = j.shift ρ κ u := h.client
  cases j with
  | free => exact ⟨congrArg (fun b => some (Sight.told b)) heq, hafter⟩
  | lifecycle task => exact ⟨rfl, h⟩
  | call task => exact ⟨rfl, h⟩

theorem goOn (h : Ensemble.Like config ρ κ u old heard v' v) (expired : Bool) :
    (v'.goOn expired).1 = (v.goOn expired).1 ∧
      Ensemble.Like config ρ κ u old heard (v'.goOn expired).2 (v.goOn expired).2 := by
  obtain ⟨s, j⟩ := v
  obtain ⟨s', j'⟩ := v'
  obtain rfl : j' = j.shift ρ κ u := h.client
  cases j with
  | free => exact ⟨rfl, h⟩
  | lifecycle task =>
    have hwish : (task.shift ρ κ u).wish = task.wish := by
      cases task with
      | requestStop p => rfl
      | awaitStopped p c => cases p <;> rfl
      | _ => rfl
    have hturned := lifecycle h
    simp only [Ensemble.goOn, Client.shift]
    generalize Lifecycle.turn s' (task.shift ρ κ u) = x' at hturned
    generalize Lifecycle.turn s task = x at hturned
    cases hturned with
    | blocked => exact ⟨rfl, h⟩
    | goesOn hafter => exact ⟨rfl, hafter⟩
    | ends ha hafter =>
      rw [hwish, ha]
      exact ⟨rfl, hafter⟩
  | call task =>
    have htells : (Client.call (task.shift ρ u)).tellsFiles = (Client.call task).tellsFiles := by
      cases task <;> rfl
    have hturned := call expired h
    simp only [Ensemble.goOn, Client.shift, htells]
    generalize Invocation.turn expired s' (task.shift ρ u) = x' at hturned
    generalize Invocation.turn expired s task = x at hturned
    cases hturned with
    | blocked => exact ⟨rfl, h⟩
    | goesOn hafter => exact ⟨rfl, hafter⟩
    | ends ha hafter =>
      refine ⟨?_, hafter⟩
      cases hn : (Client.call task).tellsFiles with
      | true => rfl
      | false => rw [ha hn]

/-- The dispatcher of the first hands on an old line. -/
theorem dispatchOld {line : String} (h : Ensemble.Like config ρ κ u (line :: old) heard v' v) :
    Ensemble.Like config ρ κ u old heard { v' with session := v'.session.dispatch } v := by
  obtain ⟨hx', he'⟩ := Session.dispatch_frame v'.session
  exact h.withSession h.session.dispatch_old hx' rfl he' rfl

/-- **Every move is the same in both, and keeps them alike**; but the dispatcher of the first has first to be done
with the old lines. -/
theorem move (h : Ensemble.Like config ρ κ u old heard v' v) (m : Move ω) (hm : old = [] ∨ m.isDispatch = false) :
    (v'.move heard m).1 = (v.move heard m).1 ∧
      Ensemble.Like config ρ κ u old (heard || (v.move heard m).2.session.link.bench.active?.isSome)
        (v'.move heard m).2 (v.move heard m).2 := by
  have hs := h.session
  cases m with
  | start => exact ⟨rfl, (h.takeOn (k := .lifecycle .arm) rfl id rfl).raise⟩
  | stop => exact ⟨rfl, (h.takeOn (k := .lifecycle (.requestStop .stop)) rfl id rfl).raise⟩
  | reset => exact ⟨rfl, (h.takeOn (k := .lifecycle .checkReset) rfl id rfl).raise⟩
  | call op args => exact ⟨rfl, (h.takeOn (k := .call (.look op args)) rfl id rfl).raise⟩
  | pause =>
    obtain ⟨heq, hlike⟩ := hs.pause
    obtain ⟨heq, hafter⟩ := h.atOnce pauseNow heq (h.withSession hlike rfl rfl rfl rfl)
    exact ⟨heq, hafter.raise⟩
  | resume =>
    obtain ⟨heq, hlike⟩ := hs.resume
    obtain ⟨heq, hafter⟩ := h.atOnce resumeNow heq (h.withSession hlike rfl rfl rfl rfl)
    exact ⟨heq, hafter.raise⟩
  | sendMidi m =>
    obtain ⟨heq, hlike⟩ := hs.sendMidi m
    obtain ⟨heq, hafter⟩ := h.atOnce (Session.sendMidi m) heq (h.withSession hlike rfl rfl rfl rfl)
    exact ⟨heq, hafter.raise⟩
  | goOn expired =>
    obtain ⟨heq, hafter⟩ := h.goOn expired
    exact ⟨heq, hafter.raise⟩
  | worker notified => exact ⟨rfl, h.worker notified⟩
  | router => exact ⟨rfl, h.router.raise⟩
  | dispatcher =>
    obtain rfl : old = [] := hm.resolve_right (by simp [Move.isDispatch])
    obtain ⟨hx', he'⟩ := Session.dispatch_frame v'.session
    obtain ⟨hx, he⟩ := Session.dispatch_frame v.session
    exact ⟨rfl, (h.withSession hs.dispatch hx' hx he' he).raise⟩
  | hear count =>
    have hafter := h.withSession (hs.onIo (f := readOutput count) fun hio =>
      ⟨hio.region, hio.bank.input, hio.bank.output.read count, hio.bank.midi', hio.bank.midi⟩) rfl rfl rfl rfl
    refine ⟨?_, hafter.raise⟩
    cases heard with
    | false => rfl
    | true =>
      have hread : (v'.session.onIo (readOutput count)).1 = (v.session.onIo (readOutput count)).1 :=
        hs.onIo_fst fun hio => hio.bank.output.read_fst count
      exact congrArg (fun xs => some (Sight.samples xs)) hread
  | feed samples =>
    have hafter := h.withSession (hs.onIo (f := writeInput samples) fun hio =>
      ⟨hio.region, hio.bank.input.write samples, hio.bank.output, hio.bank.midi', hio.bank.midi⟩) rfl rfl rfl rfl
    exact ⟨rfl, hafter.raise⟩
  | write f => exact ⟨rfl, (h.withSession (hs.onRegion f) rfl rfl rfl rfl).raise⟩
  | listen f =>
    have hafter := h.withSession (hs.withOutlets { v'.session.outlets with bus := f v'.session.outlets.bus }
      { v.session.outlets with bus := f v.session.outlets.bus } hs.device' hs.device) rfl rfl rfl rfl
    exact ⟨rfl, hafter.raise⟩

end Ensemble.Like

/-! ### Performances with an audience -/

/-- A session with its client and an audience, which hears what can be read from the output ring as soon as a
performance has begun. -/
structure ObservedSession (ω : Type) where
  ensemble : Ensemble Unit Sine ω
  heard : Bool := false

namespace ObservedSession

variable {ω : Type}

/-- A session whose client is free, before anything is heard. -/
def new (s : Session Unit Sine ω) : ObservedSession ω := ⟨⟨s, .free⟩, false⟩

/-- The audience hears nothing until the next start. -/
def hush (c : ObservedSession ω) : ObservedSession ω := { c with heard := false }

/-- A move, with what there is to see of it. -/
def act (m : Move ω) (c : ObservedSession ω) : Option Sight × ObservedSession ω :=
  let (sight, v) := c.ensemble.move c.heard m
  (sight, ⟨v, c.heard || v.session.link.bench.active?.isSome⟩)

/-- What there is to see of some moves. -/
def sights (ms : List (Move ω)) (c : ObservedSession ω) : List Sight := (outputs act ms c).reduceOption

/-- What there is to see at any time: the phase, the region, and the samples that can be read if they are heard. -/
structure View where
  phase : PlayState
  region : Region
  samples : Option (List Float)

/-- What there is to see at any time. -/
def view (c : ObservedSession ω) : View where
  phase := c.ensemble.session.playState
  region := c.ensemble.session.region
  samples :=
    if c.heard then
      some (c.ensemble.session.memory.io c.ensemble.session.transport.io).bank.audio.output.contents
    else none

/-- Two concerts that are alike. -/
def Like (config : Config) (ρ κ u : Nat) (old : List String) (c' c : ObservedSession ω) : Prop :=
  c'.heard = c.heard ∧ Ensemble.Like config ρ κ u old c.heard c'.ensemble c.ensemble

variable {config : Config} {ρ κ u : Nat} {old : List String} {c' c : ObservedSession ω}

/-- What there is to see of two that are alike is the same. -/
theorem Like.view (h : Like config ρ κ u old c' c) : c'.view = c.view := by
  obtain ⟨hheard, hlike⟩ := h
  have hs := hlike.session
  have hsamples : c.heard = true →
      (c'.ensemble.session.memory.io c'.ensemble.session.transport.io).bank.audio.output.contents =
        (c.ensemble.session.memory.io c.ensemble.session.transport.io).bank.audio.output.contents := by
    intro hc
    rw [hc] at hs
    rw [hs.transport.io]
    exact (hs.memory.io hs.transport.bank).bank.output.contents_eq
  rw [ObservedSession.view, ObservedSession.view, hs.playState, hs.region, hheard]
  by_cases hc : c.heard = true
  · rw [if_pos hc, if_pos hc, hsamples hc]
  · rw [if_neg hc, if_neg hc]

theorem Like.act (h : Like config ρ κ u old c' c) (m : Move ω) (hm : old = [] ∨ m.isDispatch = false) :
    (act m c').1 = (act m c).1 ∧ Like config ρ κ u old (act m c').2 (act m c).2 := by
  obtain ⟨hheard, hlike⟩ := h
  obtain ⟨heq, hafter⟩ := hlike.move m hm
  rw [ObservedSession.act, ObservedSession.act, hheard]
  refine ⟨heq, ?_, hafter⟩
  show (_ || _) = (_ || _)
  rw [hafter.session.bench.active?, Option.isSome_map]

theorem Like.dispatchOld {line : String} (h : Like config ρ κ u (line :: old) c' c) :
    (ObservedSession.act .dispatcher c').1 = none ∧ Like config ρ κ u old (ObservedSession.act .dispatcher c').2 c := by
  obtain ⟨hheard, hlike⟩ := h
  have hafter := hlike.dispatchOld
  refine ⟨rfl, ?_, hafter⟩
  show (c'.heard || c'.ensemble.session.dispatch.link.bench.active?.isSome) = c.heard
  have hactive : c'.ensemble.session.dispatch.link.bench.active? = _ := hafter.session.bench.active?
  rw [hheard, hactive, Option.isSome_map]
  exact hafter.session.bench.heard_eq

end ObservedSession

/-- The moves without the first `n` of the dispatcher. -/
def Move.skipDispatches {ω : Type} : Nat → List (Move ω) → List (Move ω)
  | 0, ms => ms
  | _ + 1, [] => []
  | n + 1, .dispatcher :: ms => skipDispatches n ms
  | n + 1, m :: ms => m :: skipDispatches (n + 1) ms

@[simp] theorem Move.skipDispatches_zero {ω : Type} (ms : List (Move ω)) : skipDispatches 0 ms = ms := by
  cases ms <;> rfl

@[simp] theorem Move.skipDispatches_replicate {ω : Type} (n : Nat) (ms : List (Move ω)) :
    skipDispatches n (List.replicate n .dispatcher ++ ms) = ms := by
  induction n with
  | zero => exact Move.skipDispatches_zero ms
  | succ n ih => exact ih

theorem Move.skipDispatches_cons {ω : Type} (n : Nat) {m : Move ω} (hm : m.isDispatch = false) (ms : List (Move ω)) :
    skipDispatches (n + 1) (m :: ms) = m :: skipDispatches (n + 1) ms := by
  cases m with
  | dispatcher => cases hm
  | _ => rfl

namespace ObservedSession

variable {ω : Type} {config : Config} {ρ κ u : Nat} {old : List String} {c' c : ObservedSession ω}

/-- **Two that are alike stay so in every run**, where the dispatcher of the first has also to hand on the old lines. -/
theorem Like.run (h : Like config ρ κ u old c' c) (ms : List (Move ω)) :
    sights ms c' = sights (Move.skipDispatches old.length ms) c ∧
      (final ObservedSession.act ms c').view =
        (final ObservedSession.act (Move.skipDispatches old.length ms) c).view := by
  induction ms generalizing old c' c with
  | nil =>
    cases old with
    | nil => exact ⟨rfl, h.view⟩
    | cons line old => exact ⟨rfl, h.view⟩
  | cons m ms ih =>
    have hboth : (old = [] ∨ m.isDispatch = false) →
        sights (m :: ms) c' = sights (m :: Move.skipDispatches old.length ms) c ∧
          (final ObservedSession.act (m :: ms) c').view =
            (final ObservedSession.act (m :: Move.skipDispatches old.length ms) c).view := by
      intro hm
      obtain ⟨heq, hafter⟩ := h.act m hm
      obtain ⟨hsights, hview⟩ := ih hafter
      refine ⟨?_, hview⟩
      show ((ObservedSession.act m c').1 :: outputs ObservedSession.act ms (ObservedSession.act m c').2).reduceOption =
        ((ObservedSession.act m c).1 :: outputs ObservedSession.act _ (ObservedSession.act m c).2).reduceOption
      rw [heq]
      cases (ObservedSession.act m c).1 with
      | none => exact hsights
      | some sight => exact congrArg (List.cons sight) hsights
    cases old with
    | nil =>
      have hsame := hboth (.inl rfl)
      rw [List.length_nil, Move.skipDispatches_zero] at hsame ⊢
      exact hsame
    | cons line old =>
      cases hm : m.isDispatch with
      | false =>
        rw [List.length_cons, Move.skipDispatches_cons _ hm]
        exact hboth (.inr hm)
      | true =>
        obtain rfl : m = .dispatcher := by
          cases m with
          | dispatcher => rfl
          | _ => cases hm
        obtain ⟨-, hafter⟩ := h.dispatchOld
        exact ih hafter

end ObservedSession

end SynthControl
