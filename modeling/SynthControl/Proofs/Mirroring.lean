import SynthControl.Proofs.Worker

/-!
# Engines that mirror others

To say which engine did what, and when, an engine is given a memory of its own for it: it does what another
engine does, and keeps a state of that engine among more.  A worker does not notice the difference, so what the
memory tells is true of the other engine itself.

* `Engine.Mirrors` — an engine does what another one does, and its reports are those of the other up to a
  relation;
* `Mirrored` — a worker with the one and a worker with the other are in the same state;
* `step_mirrored`, `handle_mirrored` — **they stay so, and give the same answers**;
* `Input`, `feed`, `run` — whatever a worker can be given, and a run of it;
* `run_mirrored` — **a run with the one is a run with the other**.
-/

namespace SynthControl

/-- An engine does what another one does, with a state of that one in its own.  What it prints may differ, as
long as the reports stay related. -/
structure Engine.Mirrors {φ φ' σ σ' : Type} (E' : Engine φ' σ') (E : Engine φ σ) (f : φ' → φ) (g : σ' → σ)
    (Q : List Event → List Event → Prop) : Prop where
  build : ∀ setup p, E.build setup (f p) = ((E'.build setup p).1.map g, f (E'.build setup p).2)
  start : ∀ io s, E.start io (g s) = ((E'.start io s).1, g (E'.start io s).2.1, (E'.start io s).2.2)
  mode : ∀ s, E.mode (g s) = E'.mode s
  perform : ∀ io s, E.perform io (g s) =
    ((E'.perform io s).1, g (E'.perform io s).2.1, (E'.perform io s).2.2)
  cleanup : ∀ io s, E.cleanup io (g s) =
    ((E'.cleanup io s).1, g (E'.cleanup io s).2.1, (E'.cleanup io s).2.2)
  reset : ∀ s, E.reset (g s) = ((E'.reset s).1, g (E'.reset s).2)
  call : ∀ op args s, E.call op args (g s) = ((E'.call op args s).1, g (E'.call op args s).2)
  drained : ∀ s, (E.drain (g s)).2 = g (E'.drain s).2
  state : ∀ {es' es}, Q es' es → ∀ p, Q (es' ++ [.state p]) (es ++ [.state p])
  lines : ∀ {es' es}, Q es' es → ∀ s,
    Q (es' ++ (E'.drain s).1.map .message) (es ++ (E.drain (g s)).1.map .message)

/-- A hosted engine, as the one that it mirrors. -/
def Hosted.map {σ σ' : Type} (g : σ' → σ) (h : Hosted σ') : Hosted σ := ⟨g h.engine, h.active⟩

/-- What hosts the one after it was drained hosts the other after it was drained. -/
theorem Engine.Mirrors.hosted_drained {φ φ' σ σ' : Type} {E' : Engine φ' σ'} {E : Engine φ σ} {f : φ' → φ}
    {g : σ' → σ} {Q : List Event → List Event → Prop} (hE : E'.Mirrors E f g Q) (s : σ') (a : Option Active) :
    some (Hosted.map g ⟨(E'.drain s).2, a⟩) = some ⟨(E.drain (g s)).2, a⟩ := by
  rw [hE.drained]
  rfl

namespace Bench

variable {φ φ' σ σ' : Type} {E' : Engine φ' σ'} {E : Engine φ σ} {f : φ' → φ} {g : σ' → σ}
  {Q : List Event → List Event → Prop} {b : Bench φ' σ'} {c : Bench φ σ}

/-- A worker with an engine and one with the engine that it mirrors are in the same state. -/
structure Mirrored (f : φ' → φ) (g : σ' → σ) (Q : List Event → List Event → Prop) (b : Bench φ' σ')
    (c : Bench φ σ) : Prop where
  factory : f b.factory = c.factory
  hosted : b.hosted.map (Hosted.map g) = c.hosted
  number : b.number = c.number
  memory : b.memory = c.memory
  life : b.life = c.life
  reports : Q b.reports c.reports

theorem Mirrored.active? (h : Mirrored f g Q b c) : b.active? = c.active? := by
  rw [Bench.active?, Bench.active?, ← h.hosted]
  cases b.hosted <;> rfl

theorem Mirrored.hosted_none (h : Mirrored f g Q b c) (hb : b.hosted = none) : c.hosted = none := by
  rw [← h.hosted, hb]
  rfl

theorem Mirrored.hosted_some (h : Mirrored f g Q b c) {e : Hosted σ'} (hb : b.hosted = some e) :
    c.hosted = some (e.map g) := by
  rw [← h.hosted, hb]
  rfl

section

variable (hE : E'.Mirrors E f g Q)
include hE

/-! ### A worker does not notice -/

theorem forward_mirrored (h : Mirrored f g Q b c) : Mirrored f g Q (b.forward E') (c.forward E) := by
  cases hb : b.hosted with
  | none =>
    rw [forward, forward, hb, h.hosted_none hb]
    exact h
  | some e =>
    rw [forward, forward, hb, h.hosted_some hb]
    exact ⟨h.factory, hE.hosted_drained e.engine e.active, h.number, h.memory, h.life,
      hE.lines h.reports e.engine⟩

theorem finish_mirrored (h : Mirrored f g Q b c) : Mirrored f g Q (b.finish E') (c.finish E) := by
  cases ha : b.active? with
  | none =>
    rw [finish_of_idle _ ha, finish_of_idle _ (h.active? ▸ ha)]
    exact h
  | some a =>
    obtain ⟨e, hb⟩ := hosted_of_active? ha
    have hc := h.hosted_some hb
    rcases hr : E'.cleanup (b.memory.io a.io) e with ⟨r, s, io⟩
    have hr' : E.cleanup (c.memory.io a.io) (g e) = (r, g s, io) := by
      rw [← h.memory, hE.cleanup, hr]
    by_cases hx : r = .crashed
    · subst hx
      rw [finish_crashed _ hb hr, finish_crashed _ hc hr', h.memory]
      exact ⟨h.factory, rfl, h.number, rfl, rfl, h.reports⟩
    · rw [finish_ended _ hb hr hx, finish_ended _ hc hr' hx, h.memory]
      exact ⟨h.factory, hE.hosted_drained s none, h.number, rfl, h.life,
        hE.state (hE.lines h.reports s) _⟩

theorem perform_mirrored (h : Mirrored f g Q b c) : Mirrored f g Q (b.perform E') (c.perform E) := by
  cases ha : b.active? with
  | none =>
    rw [perform_of_idle _ ha, perform_of_idle _ (h.active? ▸ ha)]
    exact h
  | some a =>
    obtain ⟨e, hb⟩ := hosted_of_active? ha
    have hc := h.hosted_some hb
    rcases hr : E'.perform (b.memory.io a.io) e with ⟨r, s, io⟩
    have hr' : E.perform (c.memory.io a.io) (g e) = (r, g s, io) := by
      rw [← h.memory, hE.perform, hr]
    by_cases hx : r = .crashed
    · subst hx
      rw [perform_crashed _ hb hr, perform_crashed _ hc hr', h.memory]
      exact ⟨h.factory, rfl, h.number, rfl, rfl, h.reports⟩
    · by_cases hm : r = .ok .more
      · subst hm
        rw [perform_more _ hb hr, perform_more _ hc hr', h.memory]
        exact ⟨h.factory, hE.hosted_drained s (some a), h.number, rfl, h.life, hE.lines h.reports s⟩
      · rw [perform_over _ hb hr hx hm, perform_over _ hc hr' hx hm]
        have hf := finish_mirrored hE
          (b := { b with hosted := some ⟨s, some a⟩, memory := b.memory.setIo a.io io })
          (c := { c with hosted := some ⟨g s, some a⟩, memory := c.memory.setIo a.io io })
          ⟨h.factory, rfl, h.number, by rw [h.memory], h.life, h.reports⟩
        dsimp only
        rw [hf.life]
        split
        · exact hf
        · exact forward_mirrored hE hf

omit hE in
theorem awaitCycle_mirrored (notified : Bool) (h : Mirrored f g Q b c) :
    Mirrored f g Q (b.awaitCycle notified) (c.awaitCycle notified) := by
  unfold awaitCycle
  rw [h.active?, h.memory]
  split
  · exact h
  · split
    · exact ⟨h.factory, h.hosted, h.number, by rw [onRegion, onRegion, h.memory], h.life, h.reports⟩
    · exact h

omit hE in
theorem next_mirrored (h : Mirrored f g Q b c) : b.next = c.next := by
  rw [next, next, h.active?, h.memory]

/-- **A step of the one is a step of the other.** -/
theorem step_mirrored (notified : Bool) (h : Mirrored f g Q b c) :
    Mirrored f g Q (b.step E' notified) (c.step E notified) := by
  unfold step
  rw [next_mirrored h]
  split
  · exact h
  · exact h
  · exact finish_mirrored hE h
  · exact awaitCycle_mirrored notified h
  · exact perform_mirrored hE h

/-! ### Requests -/

omit hE in
theorem engine?_mirrored (number : Int) (h : Mirrored f g Q b c) :
    c.engine? number = (b.engine? number).map g := by
  unfold engine?
  rw [← h.number, ← h.hosted]
  split
  · cases b.hosted <;> rfl
  · rfl

omit hE in
theorem setEngine_mirrored (h : Mirrored f g Q b c) (e : σ') :
    Mirrored f g Q (b.setEngine e) (c.setEngine (g e)) :=
  ⟨h.factory, by rw [setEngine, setEngine, h.active?]; rfl, h.number, h.memory, h.life, h.reports⟩

theorem respond_mirrored {v : Attempt Value} (h : Mirrored f g Q b c) :
    (respond E' (v, b)).1 = (respond E (v, c)).1 ∧
      Mirrored f g Q (respond E' (v, b)).2 (respond E (v, c)).2 := by
  cases v with
  | ok v => exact ⟨rfl, forward_mirrored hE h⟩
  | failed e => exact ⟨rfl, forward_mirrored hE h⟩
  | crashed => exact ⟨rfl, ⟨h.factory, h.hosted, h.number, h.memory, rfl, h.reports⟩⟩

/-- A result of the one is a result of the other. -/
def Agree (f : φ' → φ) (g : σ' → σ) (Q : List Event → List Event → Prop)
    (r : Attempt Value × Bench φ' σ') (q : Attempt Value × Bench φ σ) : Prop :=
  r.1 = q.1 ∧ Mirrored f g Q r.2 q.2

theorem build_mirrored (setup : Setup) (h : Mirrored f g Q b c) :
    Agree f g Q (b.build E' setup) (c.build E setup) := by
  have hf := finish_mirrored hE h
  unfold build
  dsimp only
  generalize b.finish E' = b' at hf ⊢
  generalize c.finish E = c' at hf ⊢
  rw [hf.life]
  split
  · exact ⟨rfl, hf⟩
  · rcases hr : E'.build setup b'.factory with ⟨r, p⟩
    rw [← hf.factory, hE.build, hr, hf.number]
    cases r with
    | ok s => exact ⟨rfl, ⟨rfl, rfl, rfl, hf.memory, rfl, hf.reports⟩⟩
    | error e => exact ⟨rfl, ⟨rfl, rfl, rfl, hf.memory, rfl, hf.reports⟩⟩

theorem start_mirrored (number : Int) (io : Handle) (h : Mirrored f g Q b c) :
    Agree f g Q (b.start E' number io) (c.start E number io) := by
  unfold start
  rw [h.active?, engine?_mirrored number h]
  split
  · exact ⟨rfl, h⟩
  · cases b.engine? number with
    | error err => exact ⟨rfl, h⟩
    | ok e =>
      rcases hr : E'.start (c.memory.io io) e with ⟨r, s, left⟩
      have hr' : E.start (c.memory.io io) (g e) = (r, g s, left) := by rw [hE.start, hr]
      simp only [Except.map, onEngine_eq, h.memory, hr, hr']
      have hm : Mirrored f g Q { b with memory := c.memory.setIo io left }
          { c with memory := c.memory.setIo io left } :=
        ⟨h.factory, h.hosted, h.number, rfl, h.life, h.reports⟩
      cases r with
      | crashed => exact ⟨rfl, hm⟩
      | failed err => exact ⟨rfl, setEngine_mirrored hm _⟩
      | ok status =>
        dsimp only
        split
        · exact ⟨rfl, setEngine_mirrored hm _⟩
        · rw [hE.mode]
          exact ⟨rfl, ⟨h.factory, rfl, h.number, rfl, h.life, hE.state h.reports _⟩⟩

theorem reset_mirrored (number : Int) (h : Mirrored f g Q b c) :
    Agree f g Q (b.reset E' number) (c.reset E number) := by
  have hf := finish_mirrored hE h
  unfold reset
  dsimp only
  rw [hf.life]
  split
  · exact ⟨rfl, hf⟩
  · rw [engine?_mirrored number hf]
    cases (b.finish E').engine? number with
    | error err => exact ⟨rfl, hf⟩
    | ok e =>
      rcases hr : E'.reset e with ⟨r, s⟩
      have hr' : E.reset (g e) = (r, g s) := by rw [hE.reset, hr]
      simp only [Except.map, hr, hr']
      cases r with
      | crashed => exact ⟨rfl, hf⟩
      | failed err => exact ⟨rfl, setEngine_mirrored hf _⟩
      | ok status => exact ⟨rfl, setEngine_mirrored hf _⟩

theorem call_mirrored (number : Int) (op : Operation) (args : List Value) (h : Mirrored f g Q b c) :
    Agree f g Q (b.call E' number op args) (c.call E number op args) := by
  unfold call
  rw [engine?_mirrored number h]
  cases b.engine? number with
  | error err => exact ⟨rfl, h⟩
  | ok e =>
    rcases hr : E'.call op args e with ⟨r, s⟩
    have hr' : E.call op args (g e) = (r, g s) := by rw [hE.call, hr]
    simp only [Except.map, hr, hr']
    exact ⟨rfl, setEngine_mirrored h _⟩

theorem leave_mirrored (h : Mirrored f g Q b c) : Mirrored f g Q (b.leave E') (c.leave E) := by
  have hf := finish_mirrored hE h
  unfold leave
  dsimp only
  rw [hf.life]
  split
  · exact hf
  · exact ⟨hf.factory, hf.hosted, hf.number, hf.memory, rfl, hf.reports⟩

theorem Agree.respond {r : Attempt Value × Bench φ' σ'} {q : Attempt Value × Bench φ σ}
    (h : Agree f g Q r q) :
    (Bench.respond E' r).1 = (Bench.respond E q).1 ∧
      Mirrored f g Q (Bench.respond E' r).2 (Bench.respond E q).2 := by
  obtain ⟨v, b⟩ := r
  obtain ⟨v', c⟩ := q
  obtain ⟨rfl, hb⟩ : v = v' ∧ Mirrored f g Q b c := h
  exact respond_mirrored hE hb

/-- **A request is answered alike by the one and by the other.** -/
theorem handle_mirrored (r : Request) (h : Mirrored f g Q b c) :
    (b.handle E' r).1 = (c.handle E r).1 ∧ Mirrored f g Q (b.handle E' r).2 (c.handle E r).2 := by
  cases r with
  | build setup => exact (build_mirrored hE setup h).respond hE
  | start number io => exact (start_mirrored hE number io h).respond hE
  | reset number => exact (reset_mirrored hE number h).respond hE
  | call number op args => exact (call_mirrored hE number op args h).respond hE
  | shutdown => exact ⟨rfl, leave_mirrored hE h⟩

end

/-! ### Runs -/

/-- What a worker can be given: a request, a turn without one, or a change of the shared memory by somebody
else. -/
inductive Input where
  | request (r : Request)
  | idle (notified : Bool)
  /-- The memory as somebody else left it. -/
  | others (memory : Memory)

/-- A worker takes what it is given as long as it serves. -/
def feed (E : Engine φ σ) (b : Bench φ σ) : Input → Bench φ σ
  | .request r => if b.life = .serving then (b.handle E r).2 else b
  | .idle notified => if b.life = .serving then b.step E notified else b
  | .others m => { b with memory := m }

/-- A run of a worker. -/
def run (E : Engine φ σ) (b : Bench φ σ) (inputs : List Input) : Bench φ σ :=
  inputs.foldl (feed E) b

section

variable (hE : E'.Mirrors E f g Q)
include hE

theorem feed_mirrored (i : Input) (h : Mirrored f g Q b c) : Mirrored f g Q (feed E' b i) (feed E c i) := by
  cases i with
  | request r =>
    rw [feed, feed, h.life]
    split
    · exact (handle_mirrored hE r h).2
    · exact h
  | idle notified =>
    rw [feed, feed, h.life]
    split
    · exact step_mirrored hE notified h
    · exact h
  | others m => exact ⟨h.factory, h.hosted, h.number, rfl, h.life, h.reports⟩

/-- **A run with the one is a run with the other.** -/
theorem run_mirrored (inputs : List Input) (h : Mirrored f g Q b c) :
    Mirrored f g Q (run E' b inputs) (run E c inputs) := by
  induction inputs generalizing b c with
  | nil => exact h
  | cons i inputs ih => exact ih (feed_mirrored hE i h)

end
end Bench
end SynthControl
