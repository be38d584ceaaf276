import Mathlib.Logic.Relation
import SynthControl.Session.Call
import SynthControl.Session.Lifecycle

/-!
# One client among the others

A session with one client.  The client makes the steps of its conversations and calls one at a time, and
between two of them worker, router, dispatcher and device may make any of theirs.

* `Client`, `Ensemble` — what the client is about; the session with its client;
* `Ensemble.Begins` — the client takes something on, or pauses or resumes the performance;
* `Ensemble.Proceeds` — the client goes on with what it is about, or one of the others moves;
* `Ensemble.Step`, `Ensemble.Reachable` — a step of anybody, and what can come of a session;
* `Conversed`, `Invoked` — the steps of a conversation and of a call, one by one, and `turn_cases`,
  `ends_cases`: **there are no others**.
-/

namespace SynthControl

/-- What the client is about. -/
inductive Client where
  | free
  | lifecycle (task : Lifecycle)
  | call (task : Invocation)

/-- A session with its client. -/
structure Ensemble (φ σ ω : Type) where
  session : Session φ σ ω
  client : Client := .free

variable {φ σ ω : Type}

namespace Ensemble

/-- The client takes something on, or pauses or resumes the performance. -/
inductive Begins : Ensemble φ σ ω → Ensemble φ σ ω → Prop where
  | start {s : Session φ σ ω} : Begins ⟨s, .free⟩ ⟨s, .lifecycle .arm⟩
  | stop {s : Session φ σ ω} : Begins ⟨s, .free⟩ ⟨s, .lifecycle (.requestStop .stop)⟩
  | reset {s : Session φ σ ω} : Begins ⟨s, .free⟩ ⟨s, .lifecycle .checkReset⟩
  | call {s : Session φ σ ω} (op : Operation) (args : List Value) :
      Begins ⟨s, .free⟩ ⟨s, .call (.look op args)⟩
  | pause {s : Session φ σ ω} :
      Begins ⟨s, .free⟩ ⟨s.setStage (s.stage.pause Outlets.surroundings).2, .free⟩
  | resume {s : Session φ σ ω} :
      Begins ⟨s, .free⟩ ⟨s.setStage (s.stage.resume Outlets.surroundings).2, .free⟩

/-- The client goes on with what it is about, or one of the others moves. -/
inductive Proceeds (E : Engine φ σ) : Ensemble φ σ ω → Ensemble φ σ ω → Prop where
  | turn {s s' : Session φ σ ω} {task task' : Lifecycle}
      (h : Lifecycle.turn s task = .goesOn task' s') :
      Proceeds E ⟨s, .lifecycle task⟩ ⟨s', .lifecycle task'⟩
  | ends {s s' : Session φ σ ω} {task : Lifecycle} {a : Except Error Int}
      (h : Lifecycle.turn s task = .ends a s') : Proceeds E ⟨s, .lifecycle task⟩ ⟨s', .free⟩
  | invoke {s s' : Session φ σ ω} {task task' : Invocation} (expired : Bool)
      (h : Invocation.turn expired s task = .goesOn task' s') :
      Proceeds E ⟨s, .call task⟩ ⟨s', .call task'⟩
  | returns {s s' : Session φ σ ω} {task : Invocation} {a : Except Error (Option Value)}
      (expired : Bool) (h : Invocation.turn expired s task = .ends a s') :
      Proceeds E ⟨s, .call task⟩ ⟨s', .free⟩
  | worker {s : Session φ σ ω} {k : Client} (notified : Bool) :
      Proceeds E ⟨s, k⟩ ⟨{ s with link := s.link.turn E notified }, k⟩
  | router {s : Session φ σ ω} {k : Client} : Proceeds E ⟨s, k⟩ ⟨{ s with link := s.link.route }, k⟩
  | dispatcher {s : Session φ σ ω} {k : Client} : Proceeds E ⟨s, k⟩ ⟨s.dispatch, k⟩
  | device {s : Session φ σ ω} {k : Client} :
      Proceeds E ⟨s, k⟩
        ⟨{ s with outlets := (s.outlets.tick s.memory).1 }.setMemory (s.outlets.tick s.memory).2, k⟩

/-- A step of anybody. -/
def Step (E : Engine φ σ) (u v : Ensemble φ σ ω) : Prop := Begins u v ∨ Proceeds E u v

/-- What can come of a session that has just been created with a device, and of its client. -/
def Reachable (E : Engine φ σ) (device : Option (Render.Device ω)) (u : Ensemble φ σ ω) : Prop :=
  ∃ (factory : φ) (config : Config) (log : Listener ω) (world : ω) (s : Session φ σ ω),
    Session.create E factory config device log world = .ok s ∧
      Relation.ReflTransGen (Step E) ⟨s, .free⟩ u

theorem Reachable.tail {E : Engine φ σ} {device : Option (Render.Device ω)} {u v : Ensemble φ σ ω}
    (h : Reachable E device u) (hs : Step E u v) : Reachable E device v := by
  obtain ⟨factory, config, log, world, s, hc, hrun⟩ := h
  exact ⟨factory, config, log, world, s, hc, hrun.tail hs⟩

/-- What holds of a session that was just created, and is kept by every step, holds of all that can come
of one. -/
theorem Reachable.invariant {E : Engine φ σ} {device : Option (Render.Device ω)}
    {P : Ensemble φ σ ω → Prop} {u : Ensemble φ σ ω} (h : Reachable E device u)
    (hcreate : ∀ (factory : φ) (config : Config) (log : Listener ω) (world : ω) (s : Session φ σ ω),
      Session.create E factory config device log world = .ok s → P ⟨s, .free⟩)
    (hstep : ∀ u v, Reachable E device u → P u → Step E u v → P v) : P u := by
  obtain ⟨factory, config, log, world, s, hs, hrun⟩ := h
  induction hrun with
  | refl => exact hcreate factory config log world s hs
  | tail hrun h ih => exact hstep _ _ ⟨factory, config, log, world, s, hs, hrun⟩ ih h

end Ensemble

def Config.small : Config where
  buffers := { midiCapacity := 1, maxChannels := 2, maxHardwareFrames := 32 }
  engine := { hardwareFrames := 32 }

/-! ### What a step of the client is -/

/-- A step of a conversation: what it was about, what the client is about then, and the session. -/
inductive Conversed (s : Session φ σ ω) : Lifecycle → Client → Session φ σ ω → Prop where
  | arms {n : Int} {c : Nat} {t : Transport} (hn : s.number = some n)
      (ht : s.transport.armStart = (.ok c, t)) :
      Conversed s .arm (.lifecycle (.sendStart n c t.io)) { s with transport := t }
  | cannotArm : Conversed s .arm .free s
  | asksStart {n : Int} {c uid : Nat} {io : Handle}
      (h : (s.link.submit (.start n io)).1 = .ok uid) :
      Conversed s (.sendStart n c io) (.lifecycle (.awaitStart c uid))
        { s with link := (s.link.submit (.start n io)).2 }
  | cannotAskStart {n : Int} {c : Nat} {io : Handle} {e : Error}
      (h : (s.link.submit (.start n io)).1 = .error e) :
      Conversed s (.sendStart n c io) (.lifecycle (.disarm (.error e)))
        { s with link := (s.link.submit (.start n io)).2 }
  | accepted {c uid : Nat} {v : Value} (h : s.link.collect Link.startLabel uid = some (.ok v))
      (hv : v.asStatus = 0) :
      Conversed s (.awaitStart c uid) (.lifecycle (.awaitStarted 0 c)) s
  | refused {c uid : Nat} {r : Except Error Value} {a : Except Error Int}
      (h : s.link.collect Link.startLabel uid = some r) :
      Conversed s (.awaitStart c uid) (.lifecycle (.disarm a)) s
  | disarms {a : Except Error Int} :
      Conversed s (.disarm a) .free { s with transport := s.transport.dropStart }
  | started {status : Int} {c : Nat} {p : PlayState}
      (h : s.transport.completions.look c = .resolved p) :
      Conversed s (.awaitStarted status c) .free
        { s with transport.completions := (s.transport.completions.take c).2 }
  | lost {status : Int} {c : Nat} (h : s.transport.completions.look c = .closed) :
      Conversed s (.awaitStarted status c) .free s
  | hasToStop : Conversed s .checkReset (.lifecycle (.requestStop .reset)) s
  | needsNoStop : Conversed s .checkReset (.lifecycle .sendReset) s
  | asksStop {p : Purpose} {c : Nat} (h : s.stage.requestStop.1 = .ok (some c)) :
      Conversed s (.requestStop p) (.lifecycle (.awaitStopped p c)) (s.setStage s.stage.requestStop.2)
  | nothingToStop : Conversed s (.requestStop .reset) (.lifecycle .sendReset) s
  | cannotStop {p : Purpose} : Conversed s (.requestStop p) .free s
  | stopped {c : Nat} :
      Conversed s (.awaitStopped .reset c) (.lifecycle .sendReset)
        { s with transport.completions := (s.transport.completions.take c).2 }
  | hasStopped {c : Nat} :
      Conversed s (.awaitStopped .stop c) .free
        { s with transport.completions := (s.transport.completions.take c).2 }
  | willNotStop {p : Purpose} {c : Nat} : Conversed s (.awaitStopped p c) .free s
  | cannotReset : Conversed s .sendReset .free s
  | asksReset {n : Int} {uid : Nat} (h : (s.link.submit (.reset n)).1 = .ok uid) :
      Conversed s .sendReset (.lifecycle (.awaitReset uid))
        { s with link := (s.link.submit (.reset n)).2 }
  | cannotAskReset {n : Int} {e : Error} (h : (s.link.submit (.reset n)).1 = .error e) :
      Conversed s .sendReset .free { s with link := (s.link.submit (.reset n)).2 }
  | hasReset {uid : Nat} {v : Value} {status : Int}
      (h : s.link.collect Link.resetLabel uid = some (.ok v)) :
      Conversed s (.awaitReset uid) (.lifecycle (.returnToStopped status)) s
  | hasNotReset {uid : Nat} {r : Except Error Value}
      (h : s.link.collect Link.resetLabel uid = some r) : Conversed s (.awaitReset uid) .free s
  | renews {status : Int} :
      Conversed s (.returnToStopped status) .free
        ((s.setStage s.stage.replaceRegion).change .stopped)

/-- What a look at a completion can show. -/
theorem Lifecycle.look_cases {s s' : Session φ σ ω} {c : Nat} {b : Bool}
    (h : look s c = some (b, s')) :
    (b = true ∧ (∃ p, s.transport.completions.look c = .resolved p) ∧
      s' = { s with transport.completions := (s.transport.completions.take c).2 }) ∨
    (b = false ∧ s.transport.completions.look c = .closed ∧ s' = s) := by
  rw [look, Completions.take] at h
  split at h
  · cases h
  · next hc =>
    cases h
    simp only [Prod.mk.injEq] at hc
    exact .inl ⟨rfl, ⟨_, hc.1⟩, by rw [← hc.2]; rfl⟩
  · next hc =>
    cases h
    simp only [Prod.mk.injEq] at hc
    exact .inr ⟨rfl, hc.1, rfl⟩

/-- A step that goes on is one of these. -/
theorem Lifecycle.turn_cases {s s' : Session φ σ ω} {task task' : Lifecycle}
    (h : turn s task = .goesOn task' s') : Conversed s task (.lifecycle task') s' := by
  cases task with
  | arm =>
    simp only [turn] at h
    split at h
    · cases h
    · cases h
    · next hn ht =>
      cases h
      exact .arms hn ht
  | sendStart n c io =>
    simp only [turn] at h
    split at h
    · next hl =>
      cases h
      have := Conversed.cannotAskStart (s := s) (c := c) (congrArg Prod.fst hl)
      rwa [hl] at this
    · next hl =>
      cases h
      have := Conversed.asksStart (s := s) (c := c) (congrArg Prod.fst hl)
      rwa [hl] at this
  | awaitStart c uid =>
    simp only [turn] at h
    split at h
    · cases h
    · next hc =>
      cases h
      exact .refused hc
    · next hc =>
      split at h
      · next hv =>
        cases h
        exact .accepted hc hv
      · cases h
        exact .refused hc
  | disarm answer => cases h
  | awaitStarted status c =>
    simp only [turn] at h
    split at h <;> cases h
  | checkReset =>
    simp only [turn] at h
    split at h
    · cases h
      exact .hasToStop
    · cases h
      exact .needsNoStop
  | requestStop p =>
    simp only [turn] at h
    split at h
    · cases h
    · cases p with
      | stop => cases h
      | reset =>
        cases h
        exact .nothingToStop
    · next hs =>
      cases h
      have := Conversed.asksStop (s := s) (p := p) (congrArg Prod.fst hs)
      rwa [hs] at this
  | awaitStopped p c =>
    simp only [turn] at h
    split at h
    · cases h
    · next hl =>
      rcases look_cases hl with ⟨-, -, rfl⟩ | ⟨hb, -, -⟩
      · cases p with
        | stop => cases h
        | reset =>
          cases h
          exact .stopped
      · cases hb
    · cases h
  | sendReset =>
    simp only [turn] at h
    split at h
    · cases h
    · split at h
      · cases h
      · next hl =>
        cases h
        have := Conversed.asksReset (s := s) (congrArg Prod.fst hl)
        rwa [hl] at this
  | awaitReset uid =>
    simp only [turn] at h
    split at h
    · cases h
    · cases h
    · next hc =>
      cases h
      exact .hasReset hc
  | returnToStopped status => cases h

theorem Lifecycle.ends_cases {s s' : Session φ σ ω} {task : Lifecycle} {a : Except Error Int}
    (h : turn s task = .ends a s') : Conversed s task .free s' := by
  cases task with
  | arm =>
    simp only [turn] at h
    split at h
    · cases h
      exact .cannotArm
    · cases h
      exact .cannotArm
    · cases h
  | sendStart n c io =>
    simp only [turn] at h
    split at h <;> cases h
  | awaitStart c uid =>
    simp only [turn] at h
    split at h
    · cases h
    · cases h
    · split at h <;> cases h
  | disarm answer =>
    cases h
    exact .disarms
  | awaitStarted status c =>
    simp only [turn] at h
    split at h
    · cases h
    · next hl =>
      cases h
      rcases look_cases hl with ⟨-, ⟨p, hp⟩, rfl⟩ | ⟨hb, -, -⟩
      · exact .started hp
      · cases hb
    · next hl =>
      cases h
      rcases look_cases hl with ⟨hb, -, -⟩ | ⟨-, hc, rfl⟩
      · cases hb
      · exact .lost hc
  | checkReset =>
    simp only [turn] at h
    split at h <;> cases h
  | requestStop p =>
    simp only [turn] at h
    split at h
    · cases h
      exact .cannotStop
    · cases p with
      | stop =>
        cases h
        exact .cannotStop
      | reset => cases h
    · cases h
  | awaitStopped p c =>
    simp only [turn] at h
    split at h
    · cases h
    · next hl =>
      rcases look_cases hl with ⟨-, -, rfl⟩ | ⟨hb, -, -⟩
      · cases p with
        | stop =>
          cases h
          exact .hasStopped
        | reset => cases h
      · cases hb
    · next hl =>
      cases h
      rcases look_cases hl with ⟨hb, -, -⟩ | ⟨-, -, rfl⟩
      · cases hb
      · exact .willNotStop
  | sendReset =>
    simp only [turn] at h
    split at h
    · cases h
      exact .cannotReset
    · split at h
      · next hl =>
        cases h
        have := Conversed.cannotAskReset (s := s) (congrArg Prod.fst hl)
        rwa [hl] at this
      · cases h
  | awaitReset uid =>
    simp only [turn] at h
    split at h
    · cases h
    · next hc =>
      cases h
      exact .hasNotReset hc
    · cases h
  | returnToStopped status =>
    cases h
    exact .renews

/-- A step of a call. -/
inductive Invoked (s : Session φ σ ω) : Invocation → Client → Session φ σ ω → Prop where
  | passes {task : Invocation} {k : Client} (ht : ∀ op uid, task ≠ .awaitReply op uid)
      (hk : ∀ op uid, k ≠ .call (.awaitReply op uid)) (hl : ∀ task, k ≠ .lifecycle task) :
      Invoked s task k s
  | asks {op : Operation} {args : List Value} {n : Int} {uid : Nat}
      (h : (s.link.submit (.call n op args)).1 = .ok uid) :
      Invoked s (.send op args) (.call (.awaitReply op uid))
        { s with link := (s.link.submit (.call n op args)).2 }
  | cannotAsk {op : Operation} {args : List Value} {n : Int} {e : Error}
      (h : (s.link.submit (.call n op args)).1 = .error e) :
      Invoked s (.send op args) .free { s with link := (s.link.submit (.call n op args)).2 }
  | answered {op : Operation} {uid : Nat} {r : Except Error Value}
      (h : s.link.collect op.name uid = some r) : Invoked s (.awaitReply op uid) .free s

theorem Invocation.turn_cases {s s' : Session φ σ ω} {expired : Bool} {task task' : Invocation}
    (h : turn expired s task = .goesOn task' s') : Invoked s task (.call task') s' := by
  cases task with
  | look op args =>
    simp only [turn] at h
    repeat' split at h
    all_goals
      cases h
      try exact .passes nofun nofun nofun
  | enter op args i =>
    simp only [turn] at h
    split at h
    all_goals
      cases h
      exact .passes nofun nofun nofun
  | await op args i w =>
    simp only [turn] at h
    repeat' split at h
    all_goals
      cases h
      try exact .passes nofun nofun nofun
  | send op args =>
    simp only [turn] at h
    split at h
    · cases h
    · split at h
      · cases h
      · next hl =>
        cases h
        have := Invoked.asks (s := s) (congrArg Prod.fst hl)
        rwa [hl] at this
  | awaitReply op uid =>
    simp only [turn] at h
    split at h <;> cases h

theorem Invocation.ends_cases {s s' : Session φ σ ω} {expired : Bool} {task : Invocation}
    {a : Except Error (Option Value)} (h : turn expired s task = .ends a s') :
    Invoked s task .free s' := by
  cases task with
  | look op args =>
    simp only [turn] at h
    repeat' split at h
    all_goals
      cases h
      try exact .passes nofun nofun nofun
  | enter op args i =>
    simp only [turn] at h
    split at h <;> cases h
  | await op args i w =>
    simp only [turn] at h
    repeat' split at h
    all_goals
      cases h
      try exact .passes nofun nofun nofun
  | send op args =>
    simp only [turn] at h
    split at h
    · cases h
      exact .passes nofun nofun nofun
    · split at h
      · next hl =>
        cases h
        have := Invoked.cannotAsk (s := s) (congrArg Prod.fst hl)
        rwa [hl] at this
      · cases h
  | awaitReply op uid =>
    simp only [turn] at h
    split at h
    · cases h
    · next hc =>
      cases h
      exact .answered hc
    · next hc =>
      cases h
      exact .answered hc

end SynthControl
