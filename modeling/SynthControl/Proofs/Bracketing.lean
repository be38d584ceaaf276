import SynthControl.Proofs.Signed

/-!
# Performances are bracketed

A performance can end in seven ways, and in each of them the worker cleans the engine up and reports the end.
What is told over the queue, with the stamps of a signing engine among it, is therefore a programme: one
performance after another, each begun and ended by the same engine in the same mode, and at most one that has
not ended yet.

* `Note` — a report of a worker whose engines sign, read with its meaning;
* `notable` — the notes that a performance is made of;
* `Played`, `programme` — a performance, and the notable notes of some performances;
* `Account` — what the reports tell agrees with the state of the worker;
* `finish_account`, `perform_account`, `start_account`, … — every operation keeps the account;
* `run_account` — **whatever a worker is given, its reports are a programme**;
* `run_bracketed` — **the same for the reports of any engine**, with and without signatures.
-/

namespace SynthControl

/-- A report of a worker whose engines sign. -/
inductive Note where
  | phase (p : PlayState)
  | mark (m : Mark)
  deriving DecidableEq, Repr

namespace Note

/-- The report as it is sent. -/
def event (w : Mark → String) : Note → Event
  | phase p => .state p
  | mark m => .message (w m)

/-- In a handwriting that can be read, a report says which note it is. -/
theorem event_injective {w : Mark → String} (hw : ∀ m n, w m = w n → m = n) {e f : Note}
    (h : e.event w = f.event w) : e = f := by
  cases e <;> cases f <;> simp only [event, Event.state.injEq, Event.message.injEq, reduceCtorEq] at h
  · rw [h]
  · rw [hw _ _ h]

/-- A phase, a start that came to zero, or a cleanup. -/
def isNotable : Note → Bool
  | phase _ => true
  | mark (.stamp s) => s.deed == .start true || s.deed == .cleanup
  | mark (.line _) => false

end Note

/-- The notable notes among some, in order. -/
def notable (es : List Note) : List Note := es.filter Note.isNotable

@[simp] theorem notable_append (es fs : List Note) : notable (es ++ fs) = notable es ++ notable fs :=
  List.filter_append _ _

/-- Lines of an engine, as notes. -/
def printed (lines : List String) : List Note := lines.map fun l => .mark (.line l)

@[simp] theorem notable_printed (lines : List String) : notable (printed lines) = [] := by
  induction lines with
  | nil => rfl
  | cons l lines ih => exact ih

/-- A performance, and the engine that plays it. -/
structure Played where
  mode : Mode
  /-- The serial number of the engine. -/
  serial : Nat
  deriving DecidableEq, Repr

namespace Played

/-- It begins: the phase is reported, and the start was accepted by the engine. -/
def opening (p : Played) : List Note :=
  [.phase p.mode.started, .mark (.stamp ⟨p.serial, .start true⟩)]

/-- It ends: the engine cleaned up, and the phase is reported. -/
def closing (p : Played) : List Note :=
  [.mark (.stamp ⟨p.serial, .cleanup⟩), .phase p.mode.ended]

/-- The two phases of a performance. -/
def phases (p : Played) : List PlayState := [p.mode.started, p.mode.ended]

end Played

/-- The notable notes of the performances that are over, and of one that runs. -/
def programme (done : List Played) (running : Option Played) : List Note :=
  (done.flatMap fun p => p.opening ++ p.closing) ++ running.toList.flatMap Played.opening

theorem programme_begin (done : List Played) (p : Played) :
    programme done none ++ p.opening = programme done (some p) := by
  simp [programme]

theorem programme_end (done : List Played) (p : Played) :
    programme done (some p) ++ p.closing = programme (done ++ [p]) none := by
  simp [programme]

/-- The phase that a note is about. -/
def Note.phase? : Note → Option PlayState
  | phase p => some p
  | mark _ => none

/-- The phases of a programme alternate. -/
theorem phases_programme (done : List Played) (running : Option Played) :
    (programme done running).filterMap Note.phase? =
      done.flatMap Played.phases ++ running.toList.map fun p => p.mode.started := by
  rw [programme, List.filterMap_append]
  congr 1
  · induction done with
    | nil => rfl
    | cons p done ih =>
      rw [List.flatMap_cons, List.filterMap_append, ih, List.flatMap_cons]
      rfl
  · cases running <;> rfl

/-- The phases among the reports are the phases among the notable notes. -/
theorem phases_story (w : Mark → String) (story : List Note) :
    phases (story.map (Note.event w)) = (notable story).filterMap Note.phase? := by
  induction story with
  | nil => rfl
  | cons e story ih =>
    cases e with
    | phase p =>
      show p :: phases (story.map (Note.event w)) = p :: (notable story).filterMap Note.phase?
      rw [ih]
    | mark m =>
      show phases (story.map (Note.event w)) = _
      rw [ih, notable, notable, List.filter_cons]
      split <;> rfl

namespace Bench

variable {φ σ : Type} {E : Engine φ σ} {w : Mark → String} {b c : Bench (φ × Nat) (Signed σ)}
  {done : List Played} {running : Option Played}

/-- The stamps that an engine has not printed. -/
def unsent (e : Signed σ) : List Note := e.unsent.map fun s => .mark (.stamp s)

theorem unsent_stamp (e : Signed σ) (s : σ) (d : Deed) :
    notable (unsent (e.stamp s d)) =
      notable (unsent e) ++ notable [.mark (.stamp ⟨e.serial, d⟩)] := by
  rw [unsent, Signed.stamp, List.map_append, notable_append]
  rfl

/-- The performance that runs, and the engine that plays it. -/
def played? (b : Bench (φ × Nat) (Signed σ)) : Option Played :=
  b.hosted.bind fun h => h.active.map fun a => ⟨a.mode, h.engine.serial⟩

theorem played?_of_none (h : b.active? = none) : b.played? = none := by
  cases hb : b.hosted with
  | none => rw [played?, hb]; rfl
  | some k =>
    have hk : k.active = none := (active?_of_hosted hb).symm.trans h
    rw [played?, hb, Option.bind_some, hk, Option.map_none]

theorem isSome_played? (b : Bench (φ × Nat) (Signed σ)) : b.played?.isSome = b.active?.isSome := by
  rw [played?, active?]
  cases b.hosted with
  | none => rfl
  | some k => exact Option.isSome_map

theorem played?_of_some {e : Signed σ} {a : Active} (h : b.hosted = some ⟨e, some a⟩) :
    b.played? = some ⟨a.mode, e.serial⟩ := by
  rw [played?, h]
  rfl

/-- What the reports tell, as far as it is notable. -/
def Tells (w : Mark → String) (b : Bench (φ × Nat) (Signed σ)) (told : List Note) : Prop :=
  ∃ story : List Note, b.reports = story.map (Note.event w) ∧ notable story = told

/-- What the reports tell agrees with the state of the worker: the performance that has begun runs, and
nothing notable has still to be printed.  After a crash it is not asked what runs. -/
structure Account (w : Mark → String) (b : Bench (φ × Nat) (Signed σ)) (done : List Played)
    (running : Option Played) : Prop where
  tells : Tells w b (programme done running)
  runs : b.life ≠ .crashed → b.played? = running
  quiet : b.life ≠ .crashed → ∀ h, b.hosted = some h → notable (unsent h.engine) = []

/-- What is told goes on with what is sent next. -/
theorem Tells.append {told told' : List Note} (h : Tells w b told) (es : List Note)
    (hr : c.reports = b.reports ++ es.map (Note.event w)) (hp : told ++ notable es = told') :
    Tells w c told' := by
  obtain ⟨story, hs, hn⟩ := h
  refine ⟨story ++ es, ?_, ?_⟩
  · rw [hr, hs, List.map_append]
  · rw [notable_append, hn, hp]

theorem Tells.congr {told : List Note} (h : Tells w b told) (hr : c.reports = b.reports) :
    Tells w c told :=
  h.append [] (by rw [hr]; simp) (by simp [notable])

namespace Account

/-- The account speaks of the engine, the reports and the life of the worker only. -/
theorem congr (h : Account w b done running) (hh : c.hosted = b.hosted) (hr : c.reports = b.reports)
    (hl : c.life = b.life) : Account w c done running :=
  ⟨h.tells.congr hr, fun hc => by rw [played?, hh]; exact h.runs (hl ▸ hc),
    fun hc k hk => h.quiet (hl ▸ hc) k (hh ▸ hk)⟩

theorem crashes (h : Account w b done running) (hr : c.reports = b.reports)
    (hl : c.life = .crashed) : Account w c done running :=
  ⟨h.tells.congr hr, fun hc => absurd hl hc, fun hc => absurd hl hc⟩

theorem stamped (h : Account w b done running) {k : Hosted (Signed σ)} {s : σ} {d : Deed}
    (hb : b.hosted = some k) (hc : c.hosted = some ⟨k.engine.stamp s d, k.active⟩)
    (hd : Note.isNotable (.mark (.stamp ⟨k.engine.serial, d⟩)) = false)
    (hr : c.reports = b.reports) (hl : c.life = b.life) : Account w c done running := by
  refine ⟨h.tells.congr hr, ?_, ?_⟩
  · intro hx
    rw [← h.runs (hl ▸ hx), played?, played?, hb, hc]
    rfl
  · intro hx j hj
    obtain rfl : _ = j := Option.some.inj (hc.symm.trans hj)
    have hq := h.quiet (hl ▸ hx) k hb
    show notable (unsent (k.engine.stamp s d)) = []
    rw [unsent_stamp, hq, notable, List.filter_cons, hd]
    rfl

end Account

/-! ### What is forwarded -/

/-- A signing engine prints its stamps and then its lines, and keeps its number. -/
theorem drain_signed (E : Engine φ σ) (w : Mark → String) (e : Signed σ) :
    ∃ (lines : List String) (s : σ),
      (E.signed w).drain e = ((e.marks lines).map w, ⟨s, e.serial, []⟩) :=
  ⟨(E.drain e.engine).1, (E.drain e.engine).2, rfl⟩

theorem message_marks (w : Mark → String) (e : Signed σ) (lines : List String) :
    ((e.marks lines).map w).map Event.message =
      (unsent e ++ printed lines).map (Note.event w) := by
  rw [Signed.marks, unsent, printed, List.map_append, List.map_append, List.map_append]
  simp only [List.map_map]
  rfl

theorem unsent_nil (s : σ) (n : Nat) : notable (unsent (⟨s, n, []⟩ : Signed σ)) = [] := rfl

/-- Forwarding tells what the engine had to print. -/
theorem forward_account {k : Hosted (Signed σ)} {told : List Note} (h : Tells w b told)
    (hb : b.hosted = some k) (hr : b.played? = running)
    (hp : told ++ notable (unsent k.engine) = programme done running) :
    Account w (b.forward (E.signed w)) done running := by
  obtain ⟨lines, s, hd⟩ := drain_signed E w k.engine
  have hf : b.forward (E.signed w) = { b with
      hosted := some ⟨⟨s, k.engine.serial, []⟩, k.active⟩
      reports := b.reports ++
        (unsent k.engine ++ printed lines).map (Note.event w) } := by
    rw [forward, hb]
    simp only [hd, message_marks]
  rw [hf]
  refine ⟨h.append _ rfl ?_, ?_, ?_⟩
  · rw [notable_append, notable_printed, List.append_nil, hp]
  · intro _
    rw [← hr, played?, played?, hb]
    rfl
  · intro _ j hj
    obtain rfl : _ = j := Option.some.inj hj
    exact unsent_nil s k.engine.serial

theorem Account.forward (h : Account w b done running) (hl : b.life ≠ .crashed) :
    Account w (b.forward (E.signed w)) done running := by
  cases hb : b.hosted with
  | none =>
    rw [Bench.forward, hb]
    exact h
  | some k =>
    refine forward_account h.tells hb (h.runs hl) ?_
    rw [h.quiet hl k hb, List.append_nil]

/-! ### Every operation keeps the account -/

/-- Ending the performance keeps the account: the engine that played it cleans up, and the end is told. -/
theorem finish_account (h : Account w b done running) (hl : b.life ≠ .crashed) :
    ∃ done' running', Account w (b.finish (E.signed w)) done' running' := by
  cases ha : b.active? with
  | none =>
    rw [finish_of_idle _ ha]
    exact ⟨done, running, h⟩
  | some a =>
    obtain ⟨e, hb⟩ := hosted_of_active? ha
    have hrun : some ⟨a.mode, e.serial⟩ = running := (played?_of_some hb).symm.trans (h.runs hl)
    subst hrun
    rcases hc : E.cleanup (b.memory.io a.io) e.engine with ⟨r, s, io⟩
    have hc' : (E.signed w).cleanup (b.memory.io a.io) e = (r, e.stamp s .cleanup, io) := by
      simp only [Engine.signed, hc]
    by_cases hr : r = .crashed
    · subst hr
      rw [finish_crashed _ hb hc']
      exact ⟨done, _, h.crashes rfl rfl⟩
    · rw [finish_ended _ hb hc' hr]
      obtain ⟨lines, s', hd⟩ := drain_signed E w (e.stamp s .cleanup)
      refine ⟨done ++ [⟨a.mode, e.serial⟩], none, ?_, fun _ => rfl, ?_⟩
      · refine h.tells.append
          (unsent (e.stamp s .cleanup) ++ printed lines ++ [.phase a.mode.ended]) ?_ ?_
        · simp only [hd, message_marks, List.map_append, List.append_assoc]
          rfl
        · -- what was unsent before was not notable, so the cleanup and the end are all that is
          rw [notable_append, notable_append, unsent_stamp, h.quiet hl _ hb, notable_printed,
            ← programme_end]
          rfl
      · intro _ j hj
        obtain rfl : _ = j := Option.some.inj hj
        rw [hd]
        exact unsent_nil s' _

theorem perform_account (h : Account w b done running) (hl : b.life ≠ .crashed) :
    ∃ done' running', Account w (b.perform (E.signed w)) done' running' := by
  cases ha : b.active? with
  | none =>
    rw [perform_of_idle _ ha]
    exact ⟨done, running, h⟩
  | some a =>
    obtain ⟨e, hb⟩ := hosted_of_active? ha
    rcases hp : E.perform (b.memory.io a.io) e.engine with ⟨r, s, io⟩
    have hp' : (E.signed w).perform (b.memory.io a.io) e = (r, e.stamp s .perform, io) := by
      simp only [Engine.signed, hp]
    by_cases hr : r = .crashed
    · subst hr
      rw [perform_crashed _ hb hp']
      exact ⟨done, running, h.crashes rfl rfl⟩
    · -- the engine with the stamp of the block, in the memory that it left
      have hc : Account w ({ b with
          hosted := some ⟨e.stamp s .perform, some a⟩, memory := b.memory.setIo a.io io } :
          Bench (φ × Nat) (Signed σ)) done running :=
        h.stamped hb rfl rfl rfl rfl
      by_cases hm : r = .ok .more
      · subst hm
        refine ⟨done, running, ?_⟩
        rw [perform_more _ hb hp']
        exact (hc.forward (E := E) hl).congr rfl rfl rfl
      · rw [perform_over _ hb hp' hr hm]
        obtain ⟨done', running', hf⟩ := finish_account (E := E) hc hl
        dsimp only
        split
        · exact ⟨done', running', hf⟩
        · next hx => exact ⟨done', running', hf.forward hx⟩

theorem step_account (notified : Bool) (h : Account w b done running) (hl : b.life ≠ .crashed) :
    ∃ done' running', Account w (b.step (E.signed w) notified) done' running' := by
  rw [step]
  split
  · exact ⟨done, running, h⟩
  · exact ⟨done, running, h⟩
  · exact finish_account h hl
  · refine ⟨done, running, ?_⟩
    rw [awaitCycle]
    split
    · exact h
    · split
      · exact h.congr rfl rfl rfl
      · exact h
  · exact perform_account h hl

/-! ### Requests -/

/-- An answer forwards what the engine had to print. -/
theorem respond_account {r : Attempt Value × Bench (φ × Nat) (Signed σ)}
    (h : Account w r.2 done running) (hl : r.1 ≠ .crashed → r.2.life ≠ .crashed) :
    Account w (respond (E.signed w) r).2 done running := by
  obtain ⟨v, b⟩ := r
  cases v with
  | ok v => exact h.forward (hl (by simp))
  | failed e => exact h.forward (hl (by simp))
  | crashed => exact h.crashes rfl rfl

theorem build_account (setup : Setup) (h : Account w b done running) (hl : b.life ≠ .crashed) :
    ∃ done' running',
      Account w (respond (E.signed w) (b.build (E.signed w) setup)).2 done' running' := by
  obtain ⟨done', running', hf⟩ := finish_account (E := E) h hl
  have hidle := (finish_move (E.signed w) b).2
  refine ⟨done', running', ?_⟩
  rw [build]
  dsimp only
  generalize b.finish (E.signed w) = b' at hf hidle ⊢
  split
  · exact respond_account hf (absurd rfl)
  · next hx =>
    have hrun : none = running' := (played?_of_none hidle).symm.trans (hf.runs hx)
    split
    · next e f he =>
      -- a new engine has nothing to print
      refine respond_account ⟨hf.tells.congr rfl, fun _ => hrun, ?_⟩ fun _ => hx
      intro _ j hj
      obtain rfl : _ = j := Option.some.inj hj
      rcases hr : E.build setup b'.factory.1 with ⟨r, f'⟩
      cases r with
      | error err => simp only [Engine.signed, hr, Prod.mk.injEq, reduceCtorEq, false_and] at he
      | ok s =>
        simp only [Engine.signed, hr, Prod.mk.injEq, Except.ok.injEq] at he
        rw [← he.1]
        exact unsent_nil s _
    · refine respond_account ⟨hf.tells.congr rfl, fun _ => hrun, ?_⟩ fun _ => hx
      intro _ j hj
      -- no engine is left
      cases hj

theorem start_signed {io left : Io} {e e' : Signed σ} {r : Attempt Int}
    (h : (E.signed w).start io e = (r, e', left)) : ∃ s, e' = e.stamp s (.start r.accepts) := by
  rcases hs : E.start io e.engine with ⟨r', s, left'⟩
  simp only [Engine.signed, hs, Prod.mk.injEq] at h
  exact ⟨s, by rw [← h.2.1, h.1]⟩

theorem accepts_eq_false {r : Attempt Int} (h : r ≠ .ok 0) : r.accepts = false := by
  cases r with
  | ok status => simpa [Attempt.accepts] using h
  | failed e => rfl
  | crashed => rfl

theorem start_account (number : Int) (io : Handle) (h : Account w b done running)
    (hl : b.life ≠ .crashed) :
    ∃ done' running',
      Account w (respond (E.signed w) (b.start (E.signed w) number io)).2 done' running' := by
  have hs := start_cases (E.signed w) number io b
  generalize b.start (E.signed w) number io = r at hs ⊢
  cases hs with
  | unasked v hv hc => exact ⟨done, running, respond_account h fun _ => hl⟩
  | crashed e e' left hs hn =>
    exact ⟨done, running, respond_account (h.congr rfl rfl rfl) (absurd rfl)⟩
  | refused r e e' left v hb hs hr hv hc =>
    obtain ⟨s, rfl⟩ := start_signed hs
    refine ⟨done, running, respond_account (h.stamped hb rfl ?_ rfl rfl) fun _ => hl⟩
    rw [accepts_eq_false hr]
    rfl
  | begun e e' left m hb hs hm =>
    obtain ⟨s, rfl⟩ := start_signed hs
    obtain rfl : none = running := (played?_of_none (active?_of_hosted hb)).symm.trans (h.runs hl)
    refine ⟨done, some ⟨E.mode s, e.serial⟩, ?_⟩
    -- the phase is told at once, and the stamp of the start with what is forwarded next
    have ht : Tells w { b with
        hosted := some ⟨e.stamp s (.start true), some ⟨io, E.mode s⟩⟩, memory := m
        reports := b.reports ++ [.state (E.mode s).started] }
        (programme done none ++ [.phase (E.mode s).started]) :=
      h.tells.append [.phase (E.mode s).started] rfl rfl
    refine forward_account ht rfl rfl ?_
    rw [unsent_stamp, h.quiet hl _ hb, ← programme_begin, List.append_assoc]
    rfl

theorem reset_account (number : Int) (h : Account w b done running) (hl : b.life ≠ .crashed) :
    ∃ done' running',
      Account w (respond (E.signed w) (b.reset (E.signed w) number)).2 done' running' := by
  obtain ⟨done', running', hf⟩ := finish_account (E := E) h hl
  refine ⟨done', running', ?_⟩
  unfold reset
  dsimp only
  generalize b.finish (E.signed w) = b' at hf ⊢
  split
  · exact respond_account hf (absurd rfl)
  · next hx =>
    split
    · exact respond_account hf fun _ => hx
    · next e he =>
      obtain ⟨-, a, hb⟩ := hosted_of_engine? he
      have ha : b'.active? = a := active?_of_hosted hb
      have hs : ∀ s, Account w (b'.setEngine (e.stamp s .reset)) done' running' := by
        intro s
        exact hf.stamped hb (by rw [setEngine_hosted, ha]) rfl rfl rfl
      rcases hr : E.reset e.engine with ⟨r, s⟩
      have hr' : (E.signed w).reset e = (r, e.stamp s .reset) := by simp only [Engine.signed, hr]
      rw [hr']
      cases r with
      | crashed => exact respond_account hf (absurd rfl)
      | failed err => exact respond_account (hs s) fun _ => hx
      | ok status => exact respond_account (hs s) fun _ => hx

theorem call_account (number : Int) (op : Operation) (args : List Value)
    (h : Account w b done running) (hl : b.life ≠ .crashed) :
    Account w (respond (E.signed w) (b.call (E.signed w) number op args)).2 done running := by
  rw [call]
  split
  · exact respond_account h fun _ => hl
  · next e he =>
    obtain ⟨-, a, hb⟩ := hosted_of_engine? he
    have ha : b.active? = a := active?_of_hosted hb
    exact respond_account (h.stamped hb (by rw [setEngine_hosted, ha]; rfl) rfl rfl rfl) fun _ => hl

theorem leave_account (h : Account w b done running) (hl : b.life ≠ .crashed) :
    ∃ done' running', Account w (b.leave (E.signed w)) done' running' := by
  obtain ⟨done', running', hf⟩ := finish_account (E := E) h hl
  refine ⟨done', running', ?_⟩
  unfold leave
  dsimp only
  split
  · exact hf
  · next hx => exact ⟨hf.tells.congr rfl, fun _ => hf.runs hx, fun _ => hf.quiet hx⟩

/-- **A request keeps the account.** -/
theorem handle_account (r : Request) (h : Account w b done running) (hl : b.life ≠ .crashed) :
    ∃ done' running', Account w (b.handle (E.signed w) r).2 done' running' := by
  cases r with
  | build setup => exact build_account setup h hl
  | start number io => exact start_account number io h hl
  | reset number => exact reset_account number h hl
  | call number op args => exact ⟨done, running, call_account number op args h hl⟩
  | shutdown => exact leave_account h hl

/-! ### Runs -/

/-- **Whatever a worker is given, it keeps the account.** -/
theorem feed_account (i : Input) (h : Account w b done running) :
    ∃ done' running', Account w (feed (E.signed w) b i) done' running' := by
  cases i with
  | request r =>
    rw [feed]
    split
    · next hl => exact handle_account r h (by rw [hl]; decide)
    · exact ⟨done, running, h⟩
  | idle notified =>
    rw [feed]
    split
    · next hl => exact step_account notified h (by rw [hl]; decide)
    · exact ⟨done, running, h⟩
  | others m => exact ⟨done, running, h.congr rfl rfl rfl⟩

theorem run_account (inputs : List Input) (h : Account w b done running) :
    ∃ done' running', Account w (run (E.signed w) b inputs) done' running' := by
  induction inputs generalizing b done running with
  | nil => exact ⟨done, running, h⟩
  | cons i inputs ih =>
    obtain ⟨done', running', h'⟩ := feed_account (E := E) i h
    exact ih h'

/-- A worker that has left plays nothing. -/
theorem run_left (E : Engine φ σ) (b : Bench φ σ) (inputs : List Input)
    (hb : b.life = .left → b.active? = none) :
    (run E b inputs).life = .left → (run E b inputs).active? = none := by
  induction inputs generalizing b with
  | nil => exact hb
  | cons i inputs ih =>
    refine ih _ ?_
    intro hl
    cases i with
    | request r =>
      rw [feed] at hl ⊢
      split at hl
      · next hs =>
        rw [if_pos hs]
        exact handle_left E r hs hl
      · next hs =>
        rw [if_neg hs]
        exact hb hl
    | idle notified =>
      rw [feed] at hl ⊢
      split at hl
      · next hs =>
        -- a step does not make a worker leave
        rcases step_life E notified b with h | h
        · rw [h, hs] at hl
          exact absurd hl (by decide)
        · rw [h] at hl
          exact absurd hl (by decide)
      · next hs =>
        rw [if_neg hs]
        exact hb hl
    | others m => exact hb hl

/-- **The reports of a worker are bracketed**, whatever its engines do and whatever it is given.  Its phases
alternate, and each end has the mode of the beginning before it; with the stamps among them every beginning
has its accepted start, and every end its cleanup by the engine that began.  When the worker has left nothing
is open, and a request for a performance is answered by zero exactly when a beginning is reported. -/
theorem run_bracketed (E : Engine φ σ) (w : Mark → String) (factory : φ) (memory : Memory)
    (inputs : List Input) :
    let b : Bench φ σ := run E { factory := factory, memory := memory } inputs
    let signed := run (E.signed w) { factory := (factory, 0), memory := memory } inputs
    Alike signed b ∧
      (∃ (story : List Note) (done : List Played) (running : Option Played),
        signed.reports = story.map (Note.event w) ∧
        notable story = programme done running ∧
        phases b.reports =
          done.flatMap Played.phases ++ running.toList.map (fun p => p.mode.started) ∧
        (b.life ≠ .crashed → (running.isSome ↔ b.active?.isSome)) ∧
        (b.life = .left → running = none)) ∧
      ∀ (number : Int) (io : Handle),
        (b.handle E (.start number io)).1 = some (.ok (.int 0)) ↔
          ∃ m : Mode,
            phases (b.handle E (.start number io)).2.reports = phases b.reports ++ [m.started] := by
  intro b signed
  have halike : Alike signed b := run_alike inputs ⟨rfl, rfl, rfl, rfl, rfl, rfl⟩
  refine ⟨halike, ?_, fun number io => handle_start_iff E b number io⟩
  have hinit : Account w ({ factory := (factory, 0), memory := memory } :
      Bench (φ × Nat) (Signed σ)) [] none :=
    ⟨⟨[], rfl, rfl⟩, fun _ => rfl, fun _ k hk => nomatch hk⟩
  obtain ⟨done, running, ⟨story, hs, hn⟩, hrun, -⟩ := run_account (E := E) inputs hinit
  have hsome : b.life ≠ .crashed → (running.isSome ↔ b.active?.isSome) := by
    intro hl
    rw [← hrun (by rw [halike.life]; exact hl), ← halike.active?, isSome_played?]
  refine ⟨story, done, running, hs, hn, ?_, hsome, ?_⟩
  · rw [← halike.phases, hs, phases_story, hn, phases_programme]
  · intro hl
    have hidle : b.active? = none := run_left E _ inputs (fun h => nomatch h) hl
    have hnone : ¬ running.isSome := by
      rw [hsome (by rw [hl]; decide), hidle]
      decide
    simpa using hnone

end Bench
end SynthControl
