import SynthControl.Proofs.Reports

/-!
# What one move of the worker does

Whatever the engine answers, one move of the worker does at most one thing to its performance: it begins
one, it ends the one that runs, or it leaves it as it is; or it crashes.  This is said once for every
operation of the worker, and everything about the order of its reports follows from it.

* `finish_crashed`, `finish_ended`, `perform_crashed`, `perform_more`, `perform_over` — the worker after the
  end of a performance and after a block, written out;
* `StartCase`, `start_cases` — the four ways in which a request for a performance can go;
* `start_of_accepted`, `start_of_refused` — the worker after the engine was asked, written out;
* `Move` — the four things that a move can do, with what is reported for each;
* `step_move`, `handle_move` — **a step and a request are moves**;
* `handle_start_cases`, `handle_start_iff` — **a request for a performance is answered by zero exactly when
  one begins**;
* `handle_reset_idle` — a reset leaves no performance behind.
-/

namespace SynthControl.Bench

variable {φ σ : Type}

/-! ### The performance and the reports -/

theorem active?_of_hosted {b : Bench φ σ} {h : Hosted σ} (hb : b.hosted = some h) :
    b.active? = h.active := by
  rw [active?, hb]
  rfl

theorem hosted_of_active? {b : Bench φ σ} {a : Active} (h : b.active? = some a) :
    ∃ e, b.hosted = some ⟨e, some a⟩ := by
  obtain ⟨⟨e, a'⟩, hb, ha⟩ := Option.bind_eq_some_iff.1 h
  have ha' : a' = some a := ha
  exact ⟨e, by rw [hb, ha']⟩

@[simp] theorem forward_active? (E : Engine φ σ) (b : Bench φ σ) :
    (b.forward E).active? = b.active? := by
  cases hb : b.hosted with
  | none => simp [forward, hb]
  | some h => simp [forward, active?, hb]

@[simp] theorem phases_forward (E : Engine φ σ) (b : Bench φ σ) :
    phases (b.forward E).reports = phases b.reports := by
  cases hb : b.hosted <;> simp [forward, hb]

@[simp] theorem forward_life (E : Engine φ σ) (b : Bench φ σ) : (b.forward E).life = b.life := by
  cases hb : b.hosted <;> simp [forward, hb]

@[simp] theorem forward_memory (E : Engine φ σ) (b : Bench φ σ) :
    (b.forward E).memory = b.memory := by
  cases hb : b.hosted <;> simp [forward, hb]

theorem setEngine_hosted (b : Bench φ σ) (e : σ) :
    (b.setEngine e).hosted = some ⟨e, b.active?⟩ := rfl

/-- An engine does something with what a handle names, which is then written back. -/
theorem onEngine_eq {α : Type} (b : Bench φ σ) (h : Handle) (e : σ)
    (f : Io → σ → Attempt α × σ × Io) :
    b.onEngine h e f = ((f (b.memory.io h) e).1, (f (b.memory.io h) e).2.1,
      { b with memory := b.memory.setIo h (f (b.memory.io h) e).2.2 }) := by
  simp only [onEngine, Memory.onIo_eq]

/-! ### The end of a performance -/

/-- The memory after the end of a performance: what the cleanup left, in a region that tells that nothing
runs. -/
def memoryAfter (m : Memory) (io : Handle) (left : Io) : Memory :=
  (m.setIo io left).modifyRegion io.region fun r => (r.set .performing 0).set .rendering 0

theorem finish_crashed (E : Engine φ σ) {b : Bench φ σ} {e e' : σ} {a : Active} {io : Io}
    (hb : b.hosted = some ⟨e, some a⟩)
    (hc : E.cleanup (b.memory.io a.io) e = (.crashed, e', io)) :
    b.finish E =
      { b with hosted := none, memory := b.memory.setIo a.io io, life := .crashed } := by
  simp only [finish, hb, onEngine_eq, hc, crash]

/-- A performance whose cleanup comes back ends: what the engine printed is reported, then the end. -/
theorem finish_ended (E : Engine φ σ) {b : Bench φ σ} {e e' : σ} {a : Active} {io : Io}
    {r : Attempt Unit} (hb : b.hosted = some ⟨e, some a⟩)
    (hc : E.cleanup (b.memory.io a.io) e = (r, e', io)) (hr : r ≠ .crashed) :
    b.finish E = { b with
      hosted := some ⟨(E.drain e').2, none⟩
      memory := memoryAfter b.memory a.io io
      reports := b.reports ++ (E.drain e').1.map .message ++ [.state a.mode.ended] } := by
  simp only [finish, hb, onEngine_eq, hc]
  cases r with
  | ok u => rfl
  | failed err => rfl
  | crashed => exact absurd rfl hr

/-! ### A block -/

/-- The memory after a block: what the engine left, and offline the boundary of a cycle. -/
def memoryBetween (m : Memory) (a : Active) (left : Io) : Memory :=
  match a.mode with
  | .realtime => m.setIo a.io left
  | .offline => (m.setIo a.io left).modifyRegion a.io.region fun r => r.raise .cycle

theorem perform_crashed (E : Engine φ σ) {b : Bench φ σ} {e e' : σ} {a : Active} {io : Io}
    (hb : b.hosted = some ⟨e, some a⟩)
    (hp : E.perform (b.memory.io a.io) e = (.crashed, e', io)) :
    b.perform E =
      { b with hosted := none, memory := b.memory.setIo a.io io, life := .crashed } := by
  simp only [perform, hb, onEngine_eq, hp, crash]

theorem perform_more (E : Engine φ σ) {b : Bench φ σ} {e e' : σ} {a : Active} {io : Io}
    (hb : b.hosted = some ⟨e, some a⟩)
    (hp : E.perform (b.memory.io a.io) e = (.ok .more, e', io)) :
    b.perform E = { b with
      hosted := some ⟨(E.drain e').2, some a⟩
      memory := memoryBetween b.memory a io
      reports := b.reports ++ (E.drain e').1.map .message } := by
  simp only [perform, hb, onEngine_eq, hp, memoryBetween]
  cases a.mode <;> rfl

theorem perform_over (E : Engine φ σ) {b : Bench φ σ} {e e' : σ} {a : Active} {io : Io}
    {r : Attempt BlockEnd} (hb : b.hosted = some ⟨e, some a⟩)
    (hp : E.perform (b.memory.io a.io) e = (r, e', io)) (hr : r ≠ .crashed) (hm : r ≠ .ok .more) :
    b.perform E =
      (let b' := { b with
          hosted := some ⟨e', some a⟩, memory := b.memory.setIo a.io io }.finish E
      if b'.life = .crashed then b' else b'.forward E) := by
  cases r with
  | crashed => exact absurd rfl hr
  | failed err => simp only [perform, hb, onEngine_eq, hp]
  | ok d =>
    cases d with
    | more => exact absurd rfl hm
    | finished => simp only [perform, hb, onEngine_eq, hp]

/-! ### A request for a performance -/

/-- The memory after a performance has begun: what the engine left, with nothing to read in the sample rings
and a region that tells that something runs. -/
def memoryBegun (m : Memory) (io : Handle) (left : Io) (mode : Mode) : Memory :=
  ((m.setIo io left).modifyBank io.bank fun bank => { bank with audio := bank.audio.clear }).modifyRegion
    io.region fun r => r.set mode.busy 1

/-- How a request for a performance on a handle can go. -/
inductive StartCase (E : Engine φ σ) (io : Handle) (b : Bench φ σ) :
    Attempt Value × Bench φ σ → Prop where
  /-- It is refused before the engine is asked. -/
  | unasked (v : Attempt Value) (hv : v ≠ .ok (.int 0)) (hc : v ≠ .crashed) :
      StartCase E io b (v, b)
  | crashed (e e' : σ) (left : Io) (hs : E.start (b.memory.io io) e = (.crashed, e', left))
      (hn : b.active? = none) :
      StartCase E io b (.crashed, { b with memory := b.memory.setIo io left })
  | refused (r : Attempt Int) (e e' : σ) (left : Io) (v : Attempt Value)
      (hb : b.hosted = some ⟨e, none⟩) (hs : E.start (b.memory.io io) e = (r, e', left))
      (hr : r ≠ .ok 0) (hv : v ≠ .ok (.int 0)) (hc : v ≠ .crashed) :
      StartCase E io b
        (v, { b with hosted := some ⟨e', none⟩, memory := b.memory.setIo io left })
  /-- A performance begins, and is reported. -/
  | begun (e e' : σ) (left : Io) (m : Memory) (hb : b.hosted = some ⟨e, none⟩)
      (hs : E.start (b.memory.io io) e = (.ok 0, e', left))
      (hm : ∀ j, j ≠ io.region → m.region j = (b.memory.setIo io left).region j) :
      StartCase E io b
        (.ok (.int 0), { b with
          hosted := some ⟨e', some ⟨io, E.mode e'⟩⟩
          memory := m
          reports := b.reports ++ [.state (E.mode e').started] })

theorem hosted_of_engine? {b : Bench φ σ} {number : Int} {e : σ}
    (h : b.engine? number = .ok e) : number = b.number ∧ ∃ a, b.hosted = some ⟨e, a⟩ := by
  rw [engine?] at h
  split at h
  · next hn =>
    cases hb : b.hosted with
    | none => simp [hb] at h
    | some k =>
      rw [hb] at h
      have he : k.engine = e := Except.ok.inj h
      exact ⟨hn, k.active, by rw [← he]⟩
  · simp at h

theorem start_cases (E : Engine φ σ) (number : Int) (io : Handle) (b : Bench φ σ) :
    StartCase E io b (b.start E number io) := by
  rw [start]
  split
  · exact .unasked _ (by simp) (by simp)
  · next ha =>
    have hn : b.active? = none := by simpa using ha
    cases he : b.engine? number with
    | error err => exact .unasked _ (by simp) (by simp)
    | ok e =>
      obtain ⟨-, a, hb⟩ := hosted_of_engine? he
      have hb' : b.hosted = some ⟨e, none⟩ := by
        rw [hb, ← hn, active?_of_hosted hb]
      simp only [onEngine_eq]
      rcases hs : E.start (b.memory.io io) e with ⟨r, e', left⟩
      cases r with
      | crashed => exact .crashed e e' left hs hn
      | failed err =>
        have := StartCase.refused (.failed err) e e' left (.failed err) hb' hs (by simp) (by simp)
          (by simp)
        simpa [setEngine, active?, hb'] using this
      | ok status =>
        by_cases h0 : status = 0
        · subst h0
          simp only [ne_eq, not_true_eq_false, if_false, report]
          refine .begun e e' left _ hb' hs ?_
          intro j hj
          rw [Memory.region_modifyRegion_other _ _ (Ne.symm hj)]
          rfl
        · have := StartCase.refused (.ok status) e e' left (.ok (.int status)) hb' hs (by simpa using h0)
            (by simpa using h0) (by simp)
          simpa [setEngine, active?, hb', h0] using this

/-- What begins if the engine accepts. -/
theorem start_of_accepted {E : Engine φ σ} {b : Bench φ σ} {io : Handle} {e e' : σ} {left : Io}
    (hb : b.hosted = some ⟨e, none⟩) (hs : E.start (b.memory.io io) e = (.ok 0, e', left)) :
    b.start E b.number io = (.ok (.int 0), { b with
      hosted := some ⟨e', some ⟨io, E.mode e'⟩⟩
      memory := memoryBegun b.memory io left (E.mode e')
      reports := b.reports ++ [.state (E.mode e').started] }) := by
  have hidle : b.active?.isSome = false := by rw [active?_of_hosted hb]; rfl
  have hengine : b.engine? b.number = .ok e := by rw [engine?, if_pos rfl, hb]
  simp only [start, hidle, hengine, onEngine_eq, hs]
  rfl

/-- What is left if the engine refuses. -/
theorem start_of_refused {E : Engine φ σ} {b : Bench φ σ} {io : Handle} {e e' : σ} {left : Io} {status : Int}
    (hb : b.hosted = some ⟨e, none⟩) (hs : E.start (b.memory.io io) e = (.ok status, e', left))
    (hstatus : status ≠ 0) :
    b.start E b.number io =
      (.ok (.int status), { b with hosted := some ⟨e', none⟩, memory := b.memory.setIo io left }) := by
  have hnone : b.active? = none := active?_of_hosted hb
  have hidle : b.active?.isSome = false := by rw [hnone]; rfl
  have hengine : b.engine? b.number = .ok e := by rw [engine?, if_pos rfl, hb]
  have hactive : ({ b with memory := b.memory.setIo io left } : Bench φ σ).active? = none := hnone
  simp only [start, hidle, hengine, onEngine_eq, hs, if_pos hstatus, setEngine, hactive]
  rfl

/-! ### Moves -/

/-- What a move does to the performance, and which phase it reports for that. -/
inductive Move (b b' : Bench φ σ) : Prop where
  /-- The performance, or that there is none, stays. -/
  | keeps (ha : b'.active? = b.active?) (hp : phases b'.reports = phases b.reports)
  | begins (a : Active) (hn : b.active? = none) (ha : b'.active? = some a)
      (hp : phases b'.reports = phases b.reports ++ [a.mode.started])
  | ends (a : Active) (ha : b.active? = some a) (hn : b'.active? = none)
      (hp : phases b'.reports = phases b.reports ++ [a.mode.ended])
  /-- The performance is lost in a crash, and nothing is reported. -/
  | loses (hl : b'.life = .crashed) (hn : b'.active? = none)
      (hp : phases b'.reports = phases b.reports)

namespace Move

theorem refl (b : Bench φ σ) : Move b b := .keeps rfl rfl

theorem congr_right {b b' c : Bench φ σ} (h : Move b b') (hl : b'.life = .crashed → c.life = .crashed)
    (ha : c.active? = b'.active?) (hp : phases c.reports = phases b'.reports) : Move b c := by
  cases h with
  | keeps ha' hp' => exact .keeps (ha.trans ha') (hp.trans hp')
  | begins a hn ha' hp' => exact .begins a hn (ha.trans ha') (hp.trans hp')
  | ends a ha' hn hp' => exact .ends a ha' (ha.trans hn) (hp.trans hp')
  | loses hl' hn hp' => exact .loses (hl hl') (ha.trans hn) (hp.trans hp')

theorem congr_left {b c b' : Bench φ σ} (h : Move c b') (ha : c.active? = b.active?)
    (hp : phases c.reports = phases b.reports) : Move b b' := by
  cases h with
  | keeps ha' hp' => exact .keeps (ha'.trans ha) (hp'.trans hp)
  | begins a hn ha' hp' => exact .begins a (ha.symm.trans hn) ha' (by rw [hp', hp])
  | ends a ha' hn hp' => exact .ends a (ha.symm.trans ha') hn (by rw [hp', hp])
  | loses hl' hn hp' => exact .loses hl' hn (hp'.trans hp)

/-- Reporting what the engine printed is part of the move before it. -/
theorem forward (E : Engine φ σ) {b b' : Bench φ σ} (h : Move b b') : Move b (b'.forward E) :=
  h.congr_right (fun hl => by rw [forward_life, hl]) (forward_active? E b') (phases_forward E b')

theorem respond (E : Engine φ σ) {b b' : Bench φ σ} (h : Move b b') (v : Attempt Value) :
    Move b (Bench.respond E (v, b')).2 := by
  cases v with
  | ok v => exact h.forward E
  | failed e => exact h.forward E
  | crashed => exact h.congr_right (fun _ => rfl) rfl rfl

end Move

/-- Ending the performance is a move, and leaves none behind. -/
theorem finish_move (E : Engine φ σ) (b : Bench φ σ) :
    Move b (b.finish E) ∧ (b.finish E).active? = none := by
  cases ha : b.active? with
  | none =>
    rw [finish_of_idle E ha]
    exact ⟨.refl b, ha⟩
  | some a =>
    obtain ⟨e, hb⟩ := hosted_of_active? ha
    rcases hc : E.cleanup (b.memory.io a.io) e with ⟨r, e', io⟩
    by_cases hr : r = .crashed
    · subst hr
      rw [finish_crashed E hb hc]
      exact ⟨.loses rfl rfl rfl, rfl⟩
    · rw [finish_ended E hb hc hr]
      exact ⟨.ends a ha rfl (by simp), rfl⟩

theorem perform_of_idle (E : Engine φ σ) {b : Bench φ σ} (h : b.active? = none) :
    b.perform E = b := by
  rw [perform]
  split
  · next hb => simp [active?, hb] at h
  · rfl

theorem perform_move (E : Engine φ σ) (b : Bench φ σ) : Move b (b.perform E) := by
  cases ha : b.active? with
  | none =>
    rw [perform_of_idle E ha]
    exact .refl b
  | some a =>
    obtain ⟨e, hb⟩ := hosted_of_active? ha
    rcases hp : E.perform (b.memory.io a.io) e with ⟨r, e', io⟩
    by_cases hr : r = .crashed
    · subst hr
      rw [perform_crashed E hb hp]
      exact .loses rfl rfl rfl
    · by_cases hm : r = .ok .more
      · subst hm
        rw [perform_more E hb hp]
        exact .keeps ha.symm (by simp)
      · rw [perform_over E hb hp hr hm]
        have hc : Move b (({ b with
            hosted := some ⟨e', some a⟩, memory := b.memory.setIo a.io io } : Bench φ σ).finish E) :=
          (finish_move E _).1.congr_left ha.symm rfl
        dsimp only
        split
        · exact hc
        · exact hc.forward E

theorem awaitCycle_move (notified : Bool) (b : Bench φ σ) : Move b (b.awaitCycle notified) := by
  rw [awaitCycle]
  split
  · exact .refl b
  · split
    · exact .keeps rfl rfl
    · exact .refl b

/-- **A step is a move.** -/
theorem step_move (E : Engine φ σ) (notified : Bool) (b : Bench φ σ) :
    Move b (b.step E notified) := by
  rw [step]
  split
  · exact .refl b
  · exact .refl b
  · exact (finish_move E b).1
  · exact awaitCycle_move notified b
  · exact perform_move E b

/-! ### Requests are moves -/

theorem build_move (E : Engine φ σ) (setup : Setup) (b : Bench φ σ) :
    Move b (b.build E setup).2 ∧ (b.build E setup).2.active? = none := by
  have hm := finish_move E b
  rw [build]
  dsimp only
  split
  · exact hm
  · split
    · exact ⟨hm.1.congr_right id hm.2.symm rfl, rfl⟩
    · exact ⟨hm.1.congr_right id hm.2.symm rfl, rfl⟩

theorem start_move (E : Engine φ σ) (number : Int) (io : Handle) (b : Bench φ σ) :
    Move b (b.start E number io).2 := by
  have h := start_cases E number io b
  generalize b.start E number io = r at h ⊢
  cases h with
  | unasked v _ hc => exact .refl b
  | crashed e e' left hs hn => exact .keeps rfl rfl
  | refused r e e' left v hb hs hr hv hc => exact .keeps (active?_of_hosted hb).symm rfl
  | begun e e' left m hb hs hm =>
    exact .begins ⟨io, E.mode e'⟩ (active?_of_hosted hb) rfl (by simp)

theorem reset_move (E : Engine φ σ) (number : Int) (b : Bench φ σ) :
    Move b (b.reset E number).2 ∧ (b.reset E number).2.active? = none := by
  have hm := finish_move E b
  unfold reset
  dsimp only
  split
  · exact hm
  · split
    · exact hm
    · split
      · exact hm
      · exact ⟨hm.1.congr_right id rfl rfl, hm.2⟩
      · exact ⟨hm.1.congr_right id rfl rfl, hm.2⟩

theorem call_move (E : Engine φ σ) (number : Int) (op : Operation) (args : List Value)
    (b : Bench φ σ) : Move b (b.call E number op args).2 := by
  rw [call]
  split
  · exact .refl b
  · exact .keeps rfl rfl

theorem leave_move (E : Engine φ σ) (b : Bench φ σ) :
    Move b (b.leave E) ∧ (b.leave E).active? = none := by
  have hm := finish_move E b
  unfold leave
  dsimp only
  split
  · exact hm
  · next hl => exact ⟨hm.1.congr_right (fun h => absurd h hl) rfl rfl, hm.2⟩

/-- **A request is a move.** -/
theorem handle_move (E : Engine φ σ) (b : Bench φ σ) (r : Request) : Move b (b.handle E r).2 := by
  cases r with
  | build setup => exact (build_move E setup b).1.respond E _
  | start number io => exact (start_move E number io b).respond E _
  | reset number => exact (reset_move E number b).1.respond E _
  | call number op args => exact (call_move E number op args b).respond E _
  | shutdown => exact (leave_move E b).1

/-! ### Answers -/

@[simp] theorem respond_active? (E : Engine φ σ) (r : Attempt Value × Bench φ σ) :
    (respond E r).2.active? = r.2.active? := by
  obtain ⟨v, b⟩ := r
  cases v with
  | ok v => exact forward_active? E b
  | failed e => exact forward_active? E b
  | crashed => rfl

@[simp] theorem phases_respond (E : Engine φ σ) (r : Attempt Value × Bench φ σ) :
    phases (respond E r).2.reports = phases r.2.reports := by
  obtain ⟨v, b⟩ := r
  cases v with
  | ok v => exact phases_forward E b
  | failed e => exact phases_forward E b
  | crashed => rfl

theorem respond_fst_iff (E : Engine φ σ) (r : Attempt Value × Bench φ σ) (x : Value) :
    (respond E r).1 = some (.ok x) ↔ r.1 = .ok x := by
  obtain ⟨v, b⟩ := r
  cases v <;> simp [respond]

theorem handle_reset_idle (E : Engine φ σ) (b : Bench φ σ) (number : Int) :
    (b.handle E (.reset number)).2.active? = none := by
  rw [handle, respond_active?]
  exact (reset_move E number b).2

theorem handle_call_active? (E : Engine φ σ) (b : Bench φ σ) (number : Int) (op : Operation)
    (args : List Value) : (b.handle E (.call number op args)).2.active? = b.active? := by
  rw [handle, respond_active?, call]
  split <;> rfl

/-- A request for a performance is answered by zero and begins one, or is not and changes nothing. -/
theorem handle_start_cases (E : Engine φ σ) (b : Bench φ σ) (number : Int) (io : Handle) :
    ((b.handle E (.start number io)).1 = some (.ok (.int 0)) ∧ b.active? = none ∧
      ∃ m : Mode, (b.handle E (.start number io)).2.active? = some ⟨io, m⟩ ∧
        phases (b.handle E (.start number io)).2.reports = phases b.reports ++ [m.started]) ∨
    ((b.handle E (.start number io)).1 ≠ some (.ok (.int 0)) ∧
      (b.handle E (.start number io)).2.active? = b.active? ∧
      phases (b.handle E (.start number io)).2.reports = phases b.reports) := by
  have h := start_cases E number io b
  rw [handle, ne_eq, respond_fst_iff, respond_active?, phases_respond]
  generalize b.start E number io = r at h ⊢
  cases h with
  | unasked v hv hc => exact .inr ⟨hv, rfl, rfl⟩
  | crashed e e' left hs hn => exact .inr ⟨by simp, rfl, rfl⟩
  | refused r e e' left v hb hs hr hv hc =>
    exact .inr ⟨hv, (active?_of_hosted hb).symm, rfl⟩
  | begun e e' left m hb hs hm =>
    exact .inl ⟨rfl, active?_of_hosted hb, E.mode e', rfl, by simp⟩

/-- **A request for a performance is answered by zero exactly when a performance begins.** -/
theorem handle_start_iff (E : Engine φ σ) (b : Bench φ σ) (number : Int) (io : Handle) :
    (b.handle E (.start number io)).1 = some (.ok (.int 0)) ↔
      ∃ m : Mode,
        phases (b.handle E (.start number io)).2.reports = phases b.reports ++ [m.started] := by
  rcases handle_start_cases E b number io with ⟨h0, -, m, -, hp⟩ | ⟨h0, -, hp⟩
  · exact ⟨fun _ => ⟨m, hp⟩, fun _ => h0⟩
  · refine ⟨fun h => absurd h h0, fun ⟨m, hm⟩ => ?_⟩
    rw [hp] at hm
    exact absurd (congrArg List.length hm) (by simp)

/-! ### Its life -/

/-- The end of a performance changes the life of the worker by a crash only. -/
theorem finish_life (E : Engine φ σ) (b : Bench φ σ) :
    (b.finish E).life = b.life ∨ (b.finish E).life = .crashed := by
  cases ha : b.active? with
  | none => exact .inl (by rw [finish_of_idle E ha])
  | some a =>
    obtain ⟨e, hb⟩ := hosted_of_active? ha
    rcases hc : E.cleanup (b.memory.io a.io) e with ⟨r, e', io⟩
    by_cases hr : r = .crashed
    · subst hr
      exact .inr (by rw [finish_crashed E hb hc])
    · exact .inl (by rw [finish_ended E hb hc hr])

theorem perform_life (E : Engine φ σ) (b : Bench φ σ) :
    (b.perform E).life = b.life ∨ (b.perform E).life = .crashed := by
  cases ha : b.active? with
  | none => exact .inl (by rw [perform_of_idle E ha])
  | some a =>
    obtain ⟨e, hb⟩ := hosted_of_active? ha
    rcases hp : E.perform (b.memory.io a.io) e with ⟨r, e', io⟩
    by_cases hr : r = .crashed
    · subst hr
      exact .inr (by rw [perform_crashed E hb hp])
    · by_cases hm : r = .ok .more
      · subst hm
        exact .inl (by rw [perform_more E hb hp])
      · rw [perform_over E hb hp hr hm]
        dsimp only
        split
        · next hl => exact .inr hl
        · rw [forward_life]
          exact finish_life E _

/-- A step changes the life of the worker by a crash only. -/
theorem step_life (E : Engine φ σ) (notified : Bool) (b : Bench φ σ) :
    (b.step E notified).life = b.life ∨ (b.step E notified).life = .crashed := by
  rw [step]
  split
  · exact .inl rfl
  · exact .inl rfl
  · exact finish_life E b
  · rw [awaitCycle]
    split
    · exact .inl rfl
    · split <;> exact .inl rfl
  · exact perform_life E b

theorem respond_life (E : Engine φ σ) {b : Bench φ σ} {r : Attempt Value × Bench φ σ}
    (h : r.2.life = b.life ∨ r.2.life = .crashed) :
    (respond E r).2.life = b.life ∨ (respond E r).2.life = .crashed := by
  obtain ⟨v, c⟩ := r
  cases v with
  | ok v => exact (forward_life E c).symm ▸ h
  | failed e => exact (forward_life E c).symm ▸ h
  | crashed => exact .inr rfl

/-- So does a request, unless it asks the worker to leave. -/
theorem handle_life (E : Engine φ σ) (b : Bench φ σ) {r : Request} (hr : r ≠ .shutdown) :
    (b.handle E r).2.life = b.life ∨ (b.handle E r).2.life = .crashed := by
  have hf := finish_life E b
  cases r with
  | build setup =>
    refine respond_life E ?_
    rw [build]
    dsimp only
    split
    · exact hf
    · split <;> exact hf
  | start number io =>
    refine respond_life E ?_
    have hs := start_cases E number io b
    generalize b.start E number io = q at hs ⊢
    cases hs <;> exact .inl rfl
  | reset number =>
    refine respond_life E ?_
    unfold reset
    dsimp only
    split
    · exact hf
    · split
      · exact hf
      · split <;> exact hf
  | call number op args =>
    refine respond_life E (.inl ?_)
    rw [call]
    split <;> rfl
  | shutdown => exact absurd rfl hr

/-- A worker that leaves plays nothing any more. -/
theorem handle_left (E : Engine φ σ) {b : Bench φ σ} (r : Request) (hb : b.life = .serving)
    (hl : (b.handle E r).2.life = .left) : (b.handle E r).2.active? = none := by
  by_cases hr : r = .shutdown
  · subst hr
    exact (leave_move E b).2
  · rcases handle_life E b hr with h | h
    · rw [h, hb] at hl
      exact absurd hl (by decide)
    · rw [h] at hl
      exact absurd hl (by decide)

end SynthControl.Bench
