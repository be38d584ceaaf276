import Mathlib.Data.List.Range
import SynthControl.Proofs.Signed

/-!
# What the engines print is told once, and in order

The worker drains its engine at three places, replaces it by another, and ends performances in steps, at resets
and when it leaves.  With a record of what happened to every engine it can be said that nothing of what they
print is lost on these ways: the reports and the records are two views of one history.

* `Happening`, `Recorded`, `Engine.recorded` — the record of an engine, and the engine that keeps one;
* `recorded_mirrors` — **an engine that keeps a record mirrors the one that it is**, and prints the same;
* `history`, `Log` — what happened to engines one after another, and reports that agree with it;
* `Log.call`, `Log.give`, `Log.begin`, `Log.finish` — they agree still after one thing more;
* `Bench.instances` — the engines that were hosted in a run;
* `Chronicle`, `step_chronicle`, `handle_chronicle`, `run_chronicle` — **the reports of a worker agree with what
  happened to its engines**, and the hosted one was drained;
* `told_in_order` — **the lines of the engines are told once, and in order**.
-/

namespace SynthControl

/-- What happens to an engine. -/
inductive Happening where
  | called (d : Deed)
  /-- It was asked for what it has printed, and gave these lines. -/
  | gave (lines : List String)
  deriving DecidableEq, Repr

/-- The lines that were given. -/
def Happening.lines : Happening → List String
  | called _ => []
  | gave lines => lines

/-- An engine with the record of what happened to it since it was built. -/
structure Recorded (σ : Type) where
  engine : σ
  /-- Its serial number; every engine of a factory has its own. -/
  serial : Nat
  record : List Happening := []

/-- The engine after something has happened to it. -/
def Recorded.enter {σ : Type} (e : Recorded σ) (s : σ) (x : Happening) : Recorded σ :=
  { e with engine := s, record := e.record ++ [x] }

/-- The engine that keeps a record. -/
def Engine.recorded {φ σ : Type} (E : Engine φ σ) : Engine (φ × Nat) (Recorded σ) where
  build setup f :=
    match E.build setup f.1 with
    | (.ok s, f') => (.ok ⟨s, f.2 + 1, []⟩, f', f.2 + 1)
    | (.error e, f') => (.error e, f', f.2)
  start io e :=
    let (r, s, io) := E.start io e.engine
    (r, e.enter s (.called (.start r.accepts)), io)
  mode e := E.mode e.engine
  perform io e :=
    let (r, s, io) := E.perform io e.engine
    (r, e.enter s (.called .perform), io)
  cleanup io e :=
    let (r, s, io) := E.cleanup io e.engine
    (r, e.enter s (.called .cleanup), io)
  reset e :=
    let (r, s) := E.reset e.engine
    (r, e.enter s (.called .reset))
  call op args e :=
    let (r, s) := E.call op args e.engine
    (r, e.enter s (.called (.call op)))
  drain e :=
    let (lines, s) := E.drain e.engine
    (lines, e.enter s (.gave lines))

/-- **An engine that keeps a record mirrors the one that it is**, and prints the same. -/
theorem Engine.recorded_mirrors {φ σ : Type} (E : Engine φ σ) :
    E.recorded.Mirrors E Prod.fst Recorded.engine Eq where
  build setup p := by
    rcases h : E.build setup p.1 with ⟨r, f⟩
    cases r <;> simp only [Engine.recorded, h] <;> rfl
  start _ _ := rfl
  mode _ := rfl
  perform _ _ := rfl
  cleanup _ _ := rfl
  reset _ := rfl
  call _ _ _ := rfl
  drained _ := rfl
  state h p := by rw [h]
  lines h s := by
    rw [h]
    rfl

/-! ### The reports and the records -/

/-- The printed line that a report is about; a phase is about none. -/
def Event.message? : Event → Option String
  | .state _ => none
  | .message line => some line

/-- The lines among reports, oldest first. -/
def messages (es : List Event) : List String := es.filterMap Event.message?

/-- How many performances have ended, by the reports. -/
def endings (es : List Event) : Nat := (phases es).countP PlayState.isEnded

/-- What happened to some engines, one engine after another, with their serial numbers. -/
def history {σ : Type} (es : List (Recorded σ)) : List (Nat × Happening) :=
  es.flatMap fun e => e.record.map (Prod.mk e.serial)

/-- The lines that were given, in order. -/
def told (xs : List (Nat × Happening)) : List String := xs.flatMap fun x => x.2.lines

/-- How often an engine was called to clean up. -/
def cleanups (xs : List (Nat × Happening)) : Nat := xs.countP fun x => x.2 = .called .cleanup

section

variable (es fs : List Event) (xs ys : List (Nat × Happening))

@[simp] theorem messages_append : messages (es ++ fs) = messages es ++ messages fs := List.filterMap_append

@[simp] theorem messages_map_message (lines : List String) : messages (lines.map .message) = lines := by
  induction lines with
  | nil => rfl
  | cons line lines ih => exact congrArg (List.cons line) ih

@[simp] theorem messages_state (p : PlayState) : messages [.state p] = [] := rfl

@[simp] theorem endings_append : endings (es ++ fs) = endings es + endings fs := by
  rw [endings, phases_append, List.countP_append]
  rfl

@[simp] theorem endings_map_message (lines : List String) : endings (lines.map .message) = 0 := by
  rw [endings, phases_map_message]
  rfl

@[simp] theorem told_append : told (xs ++ ys) = told xs ++ told ys := List.flatMap_append

@[simp] theorem cleanups_append : cleanups (xs ++ ys) = cleanups xs + cleanups ys := List.countP_append

end

/-- Something happens to the youngest engine, and to the history. -/
theorem history_enter {σ : Type} (past : List (Recorded σ)) (e : Recorded σ) (s : σ) (x : Happening) :
    history (past ++ [e.enter s x]) = history (past ++ [e]) ++ [(e.serial, x)] := by
  simp [history, Recorded.enter]

/-- To a new engine nothing has happened yet. -/
theorem history_append_new {σ : Type} (es : List (Recorded σ)) (s : σ) (n : Nat) :
    history (es ++ [⟨s, n, []⟩]) = history es := by
  simp [history]

theorem told_history {σ : Type} (es : List (Recorded σ)) :
    told (history es) = es.flatMap fun e => e.record.flatMap Happening.lines := by
  simp only [told, history, List.flatMap_assoc, List.flatMap_map]

/-- The reports agree with what happened: the lines that were given are told, every cleanup is followed by the
report of an end, and what was given until then is told before it. -/
structure Log (reports : List Event) (xs : List (Nat × Happening)) : Prop where
  messages_eq : messages reports = told xs
  endings_eq : endings reports = cleanups xs
  ended : ∀ before after p, p.isEnded = true → reports = before ++ .state p :: after →
    ∃ earlier n lines later, xs = earlier ++ [(n, .called .cleanup), (n, .gave lines)] ++ later ∧
      messages before = told earlier ++ lines ∧ endings before = cleanups earlier

namespace Log

variable {es : List Event} {xs : List (Nat × Happening)}

/-- A report that does not come later came earlier. -/
theorem split_append {fs before after : List Event} {x : Event} (hx : x ∉ fs)
    (h : es ++ fs = before ++ x :: after) : ∃ rest, es = before ++ x :: rest := by
  rcases List.append_eq_append_iff.1 h with ⟨as, -, hfs⟩ | ⟨bs, hes, hrest⟩
  · rw [hfs] at hx
    exact absurd (List.mem_append_right _ List.mem_cons_self) hx
  · cases bs with
    | nil =>
      rw [List.nil_append] at hrest
      rw [← hrest] at hx
      exact absurd List.mem_cons_self hx
    | cons y bs =>
      obtain ⟨rfl, -⟩ := List.cons.inj hrest
      exact ⟨bs, hes⟩

theorem nil : Log [] [] := by
  refine ⟨rfl, rfl, fun before after p _ h => ?_⟩
  simp at h

/-- What comes later does not change what came before an end. -/
theorem ended_append (h : Log es xs) (ys : List (Nat × Happening)) (fs : List Event) {before after : List Event}
    {p : PlayState} (hp : p.isEnded = true) (hfs : .state p ∉ fs)
    (heq : es ++ fs = before ++ .state p :: after) :
    ∃ earlier n lines later, xs ++ ys = earlier ++ [(n, .called .cleanup), (n, .gave lines)] ++ later ∧
      messages before = told earlier ++ lines ∧ endings before = cleanups earlier := by
  obtain ⟨rest, hes⟩ := split_append hfs heq
  obtain ⟨earlier, n, lines, later, hxs, hmessages, hendings⟩ := h.ended before rest p hp hes
  exact ⟨earlier, n, lines, later ++ ys, by rw [hxs, List.append_assoc], hmessages, hendings⟩

/-- Nothing is told of a call that is no cleanup. -/
theorem call (h : Log es xs) (n : Nat) {d : Deed} (hd : d ≠ .cleanup) : Log es (xs ++ [(n, .called d)]) := by
  refine ⟨?_, ?_, fun before after p hp heq => ?_⟩
  · rw [told_append, h.messages_eq]
    exact (List.append_nil _).symm
  · rw [cleanups_append, h.endings_eq]
    simp [cleanups, hd]
  · exact h.ended_append _ [] hp List.not_mem_nil (by rw [List.append_nil, heq])

/-- What is given is told. -/
theorem give (h : Log es xs) (n : Nat) (lines : List String) :
    Log (es ++ lines.map .message) (xs ++ [(n, .gave lines)]) := by
  refine ⟨?_, ?_, fun before after p hp heq => ?_⟩
  · rw [messages_append, messages_map_message, told_append, h.messages_eq]
    simp [told, Happening.lines]
  · rw [endings_append, endings_map_message, cleanups_append, h.endings_eq]
    simp [cleanups]
  · exact h.ended_append _ _ hp (by simp) heq

/-- The report of a beginning tells nothing of the engines. -/
theorem begin (h : Log es xs) {p : PlayState} (hp : p.isEnded = false) : Log (es ++ [.state p]) xs := by
  refine ⟨?_, ?_, fun before after q hq heq => ?_⟩
  · rw [messages_append, messages_state, List.append_nil, h.messages_eq]
  · rw [endings_append, h.endings_eq]
    simp [endings, hp]
  · have hne : .state q ∉ [Event.state p] := by
      rw [List.mem_singleton]
      rintro ⟨⟩
      rw [hp] at hq
      cases hq
    simpa using h.ended_append [] _ hq hne heq

/-- The report of an end comes after what was given after the cleanup. -/
theorem finish (h : Log es xs) (n : Nat) (lines : List String) {p : PlayState} (hp : p.isEnded = true) :
    Log (es ++ lines.map .message ++ [.state p]) (xs ++ [(n, .called .cleanup), (n, .gave lines)]) := by
  refine ⟨?_, ?_, fun before after q hq heq => ?_⟩
  · rw [messages_append, messages_state, List.append_nil, messages_append, messages_map_message, told_append,
      h.messages_eq]
    simp [told, Happening.lines]
  · rw [endings_append, endings_append, endings_map_message, cleanups_append, h.endings_eq]
    simp [endings, cleanups, hp]
  · rcases List.eq_nil_or_concat after with rfl | ⟨after, x, rfl⟩
    · -- it is the last report that ends the performance
      obtain ⟨rfl, -⟩ := List.append_inj' heq rfl
      refine ⟨xs, n, lines, [], by rw [List.append_nil], ?_, ?_⟩
      · rw [messages_append, messages_map_message, h.messages_eq]
      · rw [endings_append, endings_map_message, h.endings_eq]
        rfl
    · rw [List.concat_eq_append, ← List.cons_append, ← List.append_assoc] at heq
      obtain ⟨heq, -⟩ := List.append_inj' heq rfl
      exact h.ended_append _ _ hq (by simp) heq

end Log

/-! ### The engines of a worker -/

/-- An engine was drained, and asked for nothing since then. -/
def Recorded.IsDrained {φ σ : Type} (E : Engine φ σ) (e : Recorded σ) : Prop :=
  ∃ earlier lines s, e.record = earlier ++ [.gave lines] ∧ E.drain s = (lines, e.engine)

theorem Recorded.isDrained_drain {φ σ : Type} (E : Engine φ σ) (e : Recorded σ) :
    (E.recorded.drain e).2.IsDrained E :=
  ⟨e.record, (E.drain e.engine).1, e.engine, rfl, rfl⟩

theorem Recorded.forall_drained_nil {φ σ : Type} {E : Engine φ σ} :
    ∀ e ∈ ([] : List (Recorded σ)), e.IsDrained E :=
  fun _ he => absurd he List.not_mem_nil

namespace Bench

variable {φ σ : Type}

/-- The hosted engine, if there is one. -/
def engines (b : Bench φ σ) : List σ := b.hosted.toList.map Hosted.engine

/-- The engine that another one takes the place of, when the worker takes what it is given. -/
def replaced (E : Engine φ σ) (b : Bench φ σ) : Input → List σ
  | .request (.build _) => if b.life = .serving then (b.finish E).engines else []
  | _ => []

/-- The engines that others took the place of in a run, oldest first. -/
def past (E : Engine φ σ) (b : Bench φ σ) : List Input → List σ
  | [] => []
  | i :: inputs => b.replaced E i ++ past E (feed E b i) inputs

/-- The engines that were hosted in a run, oldest first, as they are when it is over. -/
def instances (E : Engine φ σ) (b : Bench φ σ) (inputs : List Input) : List σ :=
  b.past E inputs ++ (run E b inputs).engines

variable {E : Engine φ σ} {b c : Bench (φ × Nat) (Recorded σ)} {gone : List (Recorded σ)}

/-- What a worker has told is what happened to the engines that are gone and to the one that it hosts. -/
structure Chronicle (gone : List (Recorded σ)) (b : Bench (φ × Nat) (Recorded σ)) : Prop where
  log : Log b.reports (history (gone ++ b.engines))
  serials : (gone ++ b.engines).map Recorded.serial = List.range' 1 b.factory.2
  number_eq : b.number = b.factory.2

/-- The hosted engine has nothing left to tell. -/
def Settled (E : Engine φ σ) (b : Bench (φ × Nat) (Recorded σ)) : Prop := ∀ e ∈ b.engines, e.IsDrained E

theorem engines_of_hosted {h : Hosted σ} {b : Bench φ σ} (hb : b.hosted = some h) : b.engines = [h.engine] := by
  rw [engines, hb]
  rfl

theorem engines_of_none {b : Bench φ σ} (hb : b.hosted = none) : b.engines = [] := by
  rw [engines, hb]
  rfl

/-! ### Every operation keeps the chronicle -/

namespace Chronicle

/-- It speaks of the engines, the reports and the numbers only. -/
theorem congr (h : Chronicle gone b) (he : c.engines = b.engines) (hr : c.reports = b.reports)
    (hf : c.factory = b.factory) (hn : c.number = b.number) : Chronicle gone c := by
  refine ⟨?_, ?_, ?_⟩
  · rw [hr, he]
    exact h.log
  · rw [he, hf]
    exact h.serials
  · rw [hn, hf]
    exact h.number_eq

/-- Something happens to the hosted engine, and what is told agrees with it. -/
theorem enter (h : Chronicle gone b) {e e' : Recorded σ} (hb : b.engines = [e]) (hc : c.engines = [e'])
    (hs : e'.serial = e.serial) (hl : Log c.reports (history (gone ++ [e']))) (hf : c.factory = b.factory)
    (hn : c.number = b.number) : Chronicle gone c := by
  refine ⟨by rwa [hc], ?_, by rw [hn, hf, h.number_eq]⟩
  have hserials := h.serials
  rw [hb, List.map_append] at hserials
  rw [hc, hf, ← hserials, List.map_append]
  exact congrArg (fun n => gone.map Recorded.serial ++ [n]) hs

/-- The hosted engine is called, and does not clean up. -/
theorem call (h : Chronicle gone b) {e : Recorded σ} {s : σ} {d : Deed} (hb : b.engines = [e])
    (hc : c.engines = [e.enter s (.called d)]) (hd : d ≠ .cleanup) (hr : c.reports = b.reports)
    (hf : c.factory = b.factory) (hn : c.number = b.number) : Chronicle gone c := by
  have hlog := h.log
  rw [hb] at hlog
  refine h.enter hb hc rfl ?_ hf hn
  rw [hr, history_enter]
  exact hlog.call e.serial hd

end Chronicle

/-- What the hosted engine has to tell is told, and then it has nothing left. -/
theorem forward_chronicle (h : Chronicle gone b) :
    Chronicle gone (b.forward E.recorded) ∧ Settled E (b.forward E.recorded) := by
  cases hb : b.hosted with
  | none =>
    rw [forward, hb]
    refine ⟨h, fun e he => ?_⟩
    rw [engines_of_none hb] at he
    exact absurd he List.not_mem_nil
  | some k =>
    have hlog := h.log
    rw [engines_of_hosted hb] at hlog
    rw [forward, hb]
    refine ⟨h.enter (engines_of_hosted hb) rfl rfl ?_ rfl rfl, fun e he => ?_⟩
    · show Log (b.reports ++ (E.drain k.engine.engine).1.map .message) (history (gone ++ [k.engine.enter _ _]))
      rw [history_enter]
      exact hlog.give k.engine.serial _
    · obtain rfl := List.mem_singleton.1 he
      exact k.engine.isDrained_drain E

/-- After the end of a performance its engine has nothing left to tell. -/
theorem finish_settled (hs : b.active? = none → Settled E b) : Settled E (b.finish E.recorded) := by
  cases ha : b.active? with
  | none =>
    rw [finish_of_idle _ ha]
    exact hs ha
  | some a =>
    obtain ⟨e, hb⟩ := hosted_of_active? ha
    rcases hc : E.recorded.cleanup (b.memory.io a.io) e with ⟨r, e', io⟩
    by_cases hr : r = .crashed
    · subst hr
      rw [finish_crashed _ hb hc]
      exact fun x hx => absurd hx List.not_mem_nil
    · rw [finish_ended _ hb hc hr]
      intro x hx
      obtain rfl := List.mem_singleton.1 hx
      exact e'.isDrained_drain E

/-- The end of a performance is told after what its engine had to tell. -/
theorem finish_chronicle (h : Chronicle gone b) (hl : (b.finish E.recorded).life ≠ .crashed) :
    Chronicle gone (b.finish E.recorded) := by
  cases ha : b.active? with
  | none =>
    rw [finish_of_idle _ ha]
    exact h
  | some a =>
    obtain ⟨e, hb⟩ := hosted_of_active? ha
    rcases hc : E.cleanup (b.memory.io a.io) e.engine with ⟨r, s, io⟩
    have hc' : E.recorded.cleanup (b.memory.io a.io) e = (r, e.enter s (.called .cleanup), io) := by
      simp only [Engine.recorded, hc]
    by_cases hr : r = .crashed
    · subst hr
      rw [finish_crashed _ hb hc'] at hl
      exact absurd rfl hl
    · rw [finish_ended _ hb hc' hr]
      have hlog := h.log
      rw [engines_of_hosted hb] at hlog
      refine h.enter (engines_of_hosted hb) rfl rfl ?_ rfl rfl
      show Log (b.reports ++ (E.drain s).1.map .message ++ [.state a.mode.ended])
        (history (gone ++ [(e.enter s _).enter _ _]))
      rw [history_enter, history_enter, List.append_assoc (history _)]
      exact hlog.finish e.serial _ a.mode.isEnded_ended

theorem perform_chronicle (h : Chronicle gone b) (hs : Settled E b)
    (hl : (b.perform E.recorded).life ≠ .crashed) :
    Chronicle gone (b.perform E.recorded) ∧ Settled E (b.perform E.recorded) := by
  cases ha : b.active? with
  | none =>
    rw [perform_of_idle _ ha]
    exact ⟨h, hs⟩
  | some a =>
    obtain ⟨e, hb⟩ := hosted_of_active? ha
    rcases hp : E.perform (b.memory.io a.io) e.engine with ⟨r, s, io⟩
    have hp' : E.recorded.perform (b.memory.io a.io) e = (r, e.enter s (.called .perform), io) := by
      simp only [Engine.recorded, hp]
    by_cases hr : r = .crashed
    · subst hr
      rw [perform_crashed _ hb hp'] at hl
      exact absurd rfl hl
    · -- the engine after the block, in the memory that it left
      have hc : Chronicle gone ({ b with
          hosted := some ⟨e.enter s (.called .perform), some a⟩, memory := b.memory.setIo a.io io } :
          Bench (φ × Nat) (Recorded σ)) :=
        h.call (engines_of_hosted hb) rfl (by simp) rfl rfl rfl
      by_cases hm : r = .ok .more
      · subst hm
        rw [perform_more _ hb hp']
        obtain ⟨hf, hd⟩ := forward_chronicle hc
        exact ⟨hf.congr rfl rfl rfl rfl, hd⟩
      · rw [perform_over _ hb hp' hr hm] at hl ⊢
        dsimp only at hl ⊢
        split at hl
        · next hx => exact absurd hx hl
        · next hx =>
          rw [if_neg hx]
          exact forward_chronicle (finish_chronicle hc hx)

/-- **A step keeps the chronicle**, and leaves nothing to tell. -/
theorem step_chronicle (notified : Bool) (h : Chronicle gone b) (hs : Settled E b)
    (hl : (b.step E.recorded notified).life ≠ .crashed) :
    Chronicle gone (b.step E.recorded notified) ∧ Settled E (b.step E.recorded notified) := by
  rw [step] at hl ⊢
  split at hl
  · exact ⟨h, hs⟩
  · exact ⟨h, hs⟩
  · exact ⟨finish_chronicle h hl, finish_settled fun _ => hs⟩
  · rw [awaitCycle]
    split
    · exact ⟨h, hs⟩
    · split
      · exact ⟨h.congr rfl rfl rfl rfl, hs⟩
      · exact ⟨h, hs⟩
  · exact perform_chronicle h hs hl

/-! ### Requests -/

theorem respond_chronicle {r : Attempt Value × Bench (φ × Nat) (Recorded σ)}
    (h : r.1 ≠ .crashed → Chronicle gone r.2) (hl : (respond E.recorded r).2.life ≠ .crashed) :
    Chronicle gone (respond E.recorded r).2 ∧ Settled E (respond E.recorded r).2 := by
  obtain ⟨v, b⟩ := r
  cases v with
  | ok v => exact forward_chronicle (h (by simp))
  | failed e => exact forward_chronicle (h (by simp))
  | crashed => exact absurd rfl hl

/-- The engine that is built takes the place of the one that was hosted. -/
theorem build_chronicle (setup : Setup) (h : Chronicle gone b)
    (hc : (b.build E.recorded setup).1 ≠ .crashed) :
    Chronicle (gone ++ (b.finish E.recorded).engines) (b.build E.recorded setup).2 := by
  rw [build] at hc ⊢
  dsimp only at hc ⊢
  split at hc
  · exact absurd rfl hc
  · next hx =>
    rw [if_neg hx]
    obtain ⟨hlog, hserials, hnumber⟩ := finish_chronicle h hx
    generalize b.finish E.recorded = b' at hlog hserials hnumber ⊢
    rcases hr : E.build setup b'.factory.1 with ⟨r, f⟩
    cases r with
    | ok s =>
      have hr' : E.recorded.build setup b'.factory =
          (.ok ⟨s, b'.factory.2 + 1, []⟩, f, b'.factory.2 + 1) := by
        simp only [Engine.recorded, hr]
      rw [hr']
      refine ⟨?_, ?_, ?_⟩
      · show Log b'.reports (history (gone ++ b'.engines ++ [⟨s, b'.factory.2 + 1, []⟩]))
        rw [history_append_new]
        exact hlog
      · show (gone ++ b'.engines ++ [(⟨s, b'.factory.2 + 1, []⟩ : Recorded σ)]).map Recorded.serial = _
        rw [List.map_append, hserials, List.range'_concat]
        simp [Nat.add_comm]
      · show b'.number + 1 = ((b'.factory.2 + 1 : Nat) : Int)
        rw [hnumber]
        rfl
    | error e =>
      have hr' : E.recorded.build setup b'.factory = (.error e, f, b'.factory.2) := by
        simp only [Engine.recorded, hr]
      rw [hr']
      refine ⟨?_, ?_, hnumber⟩
      · show Log b'.reports (history (gone ++ b'.engines ++ []))
        rw [List.append_nil]
        exact hlog
      · show (gone ++ b'.engines ++ []).map Recorded.serial = _
        rw [List.append_nil]
        exact hserials

theorem enter_of_start {io left : Io} {e e' : Recorded σ} {r : Attempt Int}
    (h : E.recorded.start io e = (r, e', left)) : ∃ s, e' = e.enter s (.called (.start r.accepts)) := by
  obtain ⟨rfl, rfl⟩ : (E.start io e.engine).1 = r ∧ e.enter (E.start io e.engine).2.1
      (.called (.start (E.start io e.engine).1.accepts)) = e' :=
    ⟨congrArg Prod.fst h, congrArg (fun x => x.2.1) h⟩
  exact ⟨_, rfl⟩

theorem start_chronicle (number : Int) (io : Handle) (h : Chronicle gone b)
    (hc : (b.start E.recorded number io).1 ≠ .crashed) :
    Chronicle gone (b.start E.recorded number io).2 := by
  have hs := start_cases E.recorded number io b
  generalize b.start E.recorded number io = r at hs hc ⊢
  cases hs with
  | unasked v _ _ => exact h
  | crashed e e' left _ _ => exact absurd rfl hc
  | refused r e e' left v hb hs _ _ _ =>
    obtain ⟨s, rfl⟩ := enter_of_start hs
    exact h.call (engines_of_hosted hb) rfl (by simp) rfl rfl rfl
  | begun e e' left m hb hs _ =>
    obtain ⟨s, rfl⟩ := enter_of_start hs
    have hcalled : Chronicle gone ({ b with hosted := some ⟨e.enter s (.called (.start true)), none⟩ } :
        Bench (φ × Nat) (Recorded σ)) :=
      h.call (engines_of_hosted hb) rfl (by simp) rfl rfl rfl
    exact ⟨hcalled.log.begin (Mode.isEnded_started _), hcalled.serials, hcalled.number_eq⟩

theorem reset_chronicle (number : Int) (h : Chronicle gone b)
    (hc : (b.reset E.recorded number).1 ≠ .crashed) :
    Chronicle gone (b.reset E.recorded number).2 := by
  unfold reset at hc ⊢
  dsimp only at hc ⊢
  split at hc
  · exact absurd rfl hc
  · next hx =>
    rw [if_neg hx]
    have hf := finish_chronicle h hx
    generalize b.finish E.recorded = b' at hf ⊢
    split
    · exact hf
    · next e he =>
      obtain ⟨-, a, hb⟩ := hosted_of_engine? he
      rcases hr : E.reset e.engine with ⟨r, s⟩
      have hr' : E.recorded.reset e = (r, e.enter s (.called .reset)) := by
        simp only [Engine.recorded, hr]
      have hcalled : Chronicle gone (b'.setEngine (e.enter s (.called .reset))) :=
        hf.call (engines_of_hosted hb) rfl (by simp) rfl rfl rfl
      rw [hr']
      cases r with
      | crashed => exact hf
      | failed err => exact hcalled
      | ok status => exact hcalled

theorem call_chronicle (number : Int) (op : Operation) (args : List Value) (h : Chronicle gone b) :
    Chronicle gone (b.call E.recorded number op args).2 := by
  rw [call]
  split
  · exact h
  · next e he =>
    obtain ⟨-, a, hb⟩ := hosted_of_engine? he
    exact h.call (engines_of_hosted hb) rfl (by simp) rfl rfl rfl

/-- **A request keeps the chronicle**, and leaves nothing to tell. -/
theorem handle_chronicle (r : Request) (h : Chronicle gone b) (hs : Settled E b) (hserving : b.life = .serving)
    (hl : (b.handle E.recorded r).2.life ≠ .crashed) :
    Chronicle (gone ++ b.replaced E.recorded (.request r)) (b.handle E.recorded r).2 ∧
      Settled E (b.handle E.recorded r).2 ∧
      ∀ e ∈ b.replaced E.recorded (.request r), e.IsDrained E := by
  have hnone : gone ++ [] = gone := List.append_nil gone
  cases r with
  | build setup =>
    rw [replaced, if_pos hserving]
    obtain ⟨hc, hd⟩ := respond_chronicle (build_chronicle setup h) hl
    exact ⟨hc, hd, finish_settled fun _ => hs⟩
  | start number io =>
    obtain ⟨hc, hd⟩ := respond_chronicle (start_chronicle number io h) hl
    exact ⟨hnone.symm ▸ hc, hd, Recorded.forall_drained_nil⟩
  | reset number =>
    obtain ⟨hc, hd⟩ := respond_chronicle (reset_chronicle number h) hl
    exact ⟨hnone.symm ▸ hc, hd, Recorded.forall_drained_nil⟩
  | call number op args =>
    obtain ⟨hc, hd⟩ := respond_chronicle (fun _ => call_chronicle number op args h) hl
    exact ⟨hnone.symm ▸ hc, hd, Recorded.forall_drained_nil⟩
  | shutdown =>
    rw [handle, leave] at hl ⊢
    dsimp only at hl ⊢
    split at hl
    · next hx => exact absurd hx hl
    · next hx =>
      rw [if_neg hx, show b.replaced E.recorded (.request .shutdown) = [] from rfl, hnone]
      exact ⟨(finish_chronicle h hx).congr rfl rfl rfl rfl, finish_settled fun _ => hs, Recorded.forall_drained_nil⟩

/-! ### Runs -/

/-- A worker that has crashed stays so. -/
theorem life_of_feed {b : Bench φ σ} {i : Input} (hl : (feed E b i).life ≠ .crashed) : b.life ≠ .crashed := by
  intro hb
  cases i with
  | others m => exact hl hb
  | _ =>
    rw [feed, if_neg (by rw [hb]; decide)] at hl
    exact hl hb

theorem life_of_run {b : Bench φ σ} (inputs : List Input) (hl : (run E b inputs).life ≠ .crashed) :
    b.life ≠ .crashed := by
  induction inputs generalizing b with
  | nil => exact hl
  | cons i inputs ih => exact life_of_feed (ih hl)

theorem feed_chronicle (i : Input) (h : Chronicle gone b) (hs : Settled E b)
    (hl : (feed E.recorded b i).life ≠ .crashed) :
    Chronicle (gone ++ b.replaced E.recorded i) (feed E.recorded b i) ∧
      Settled E (feed E.recorded b i) ∧ ∀ e ∈ b.replaced E.recorded i, e.IsDrained E := by
  have hidle : gone ++ [] = gone := List.append_nil gone
  cases i with
  | request r =>
    rw [feed] at hl ⊢
    split at hl
    · next hserving =>
      rw [if_pos hserving]
      exact handle_chronicle r h hs hserving hl
    · next hserving =>
      have hnone : b.replaced E.recorded (.request r) = [] := by
        cases r with
        | build setup => exact if_neg hserving
        | _ => rfl
      rw [if_neg hserving, hnone, hidle]
      exact ⟨h, hs, Recorded.forall_drained_nil⟩
  | idle notified =>
    rw [feed] at hl ⊢
    rw [show b.replaced E.recorded (.idle notified) = [] from rfl, hidle]
    split at hl
    · next hserving =>
      rw [if_pos hserving]
      obtain ⟨hc, hd⟩ := step_chronicle notified h hs hl
      exact ⟨hc, hd, Recorded.forall_drained_nil⟩
    · next hserving =>
      rw [if_neg hserving]
      exact ⟨h, hs, Recorded.forall_drained_nil⟩
  | others m =>
    rw [show b.replaced E.recorded (.others m) = [] from rfl, hidle]
    exact ⟨h.congr rfl rfl rfl rfl, hs, Recorded.forall_drained_nil⟩

/-- **Whatever a worker is given, it keeps the chronicle**, and leaves nothing to tell. -/
theorem run_chronicle (inputs : List Input) (h : Chronicle gone b) (hs : Settled E b)
    (hl : (run E.recorded b inputs).life ≠ .crashed) :
    Chronicle (gone ++ b.past E.recorded inputs) (run E.recorded b inputs) ∧
      ∀ e ∈ b.instances E.recorded inputs, e.IsDrained E := by
  induction inputs generalizing b gone with
  | nil =>
    rw [past, List.append_nil]
    exact ⟨h, hs⟩
  | cons i inputs ih =>
    obtain ⟨hc, hd, hreplaced⟩ := feed_chronicle i h hs (life_of_run inputs hl)
    obtain ⟨hrun, hinstances⟩ := ih hc hd hl
    rw [past, ← List.append_assoc]
    refine ⟨hrun, fun e he => ?_⟩
    rw [instances, past, List.append_assoc] at he
    rcases List.mem_append.1 he with he | he
    · exact hreplaced e he
    · exact hinstances e he

/-- **The lines of the engines are told once, and in order.**  Unless the worker crashes, after any requests and
steps, with any engine, and with the record of what happened to every engine that was hosted:

* the worker has told the same as without the records;
* the engines are numbered in the order in which they were installed, up to the number of the last one;
* the lines on the queue are those that the engines gave when they were drained, engine after engine;
* every engine, gone or hosted, was drained after it was called for the last time; so if an engine that was just
  drained has no lines, the hosted engine has none;
* the end of a performance is reported after the lines that were given until its engine was drained after its
  cleanup, and before all others: the performances that have ended before are as many as the cleanups before. -/
theorem told_in_order (E : Engine φ σ) (factory : φ) (memory : Memory) (inputs : List Input)
    (hl : (run E { factory := factory, memory := memory } inputs).life ≠ .crashed) :
    let b := run E { factory := factory, memory := memory } inputs
    let start : Bench (φ × Nat) (Recorded σ) := { factory := (factory, 0), memory := memory }
    let es := start.instances E.recorded inputs
    Mirrored Prod.fst Recorded.engine Eq (run E.recorded start inputs) b ∧
    es.map Recorded.serial = List.range' 1 es.length ∧ b.number = es.length ∧
    messages b.reports = es.flatMap (fun e => e.record.flatMap Happening.lines) ∧
    (∀ e ∈ es, e.IsDrained E) ∧
    ((∀ s, (E.drain (E.drain s).2).1 = []) → ∀ h, b.hosted = some h → (E.drain h.engine).1 = []) ∧
    ∀ before after p, p.isEnded = true → b.reports = before ++ .state p :: after →
      ∃ earlier n lines later,
        history es = earlier ++ [(n, .called .cleanup), (n, .gave lines)] ++ later ∧
        messages before = told earlier ++ lines ∧ endings before = cleanups earlier := by
  intro b start es
  have hmirrored : Mirrored Prod.fst Recorded.engine Eq (run E.recorded start inputs) b :=
    run_mirrored E.recorded_mirrors inputs ⟨rfl, rfl, rfl, rfl, rfl, rfl⟩
  have hstart : Chronicle ([] : List (Recorded σ)) start := ⟨.nil, rfl, rfl⟩
  obtain ⟨⟨hlog, hserials, hnumber⟩, hdrained⟩ :=
    run_chronicle (E := E) inputs hstart Recorded.forall_drained_nil (by rw [hmirrored.life]; exact hl)
  rw [hmirrored.reports] at hlog
  have hes : [] ++ start.past E.recorded inputs ++ (run E.recorded start inputs).engines = es := rfl
  rw [hes] at hlog hserials
  have hlength : es.length = (run E.recorded start inputs).factory.2 := by
    rw [← List.length_map Recorded.serial, hserials, List.length_range']
  refine ⟨hmirrored, by rw [hserials, hlength], by rw [← hmirrored.number, hnumber, hlength], ?_, hdrained,
    fun hempty h hb => ?_, hlog.ended⟩
  · rw [hlog.messages_eq, told_history]
  · rw [← hmirrored.hosted] at hb
    obtain ⟨k, hk, rfl⟩ := Option.map_eq_some_iff.1 hb
    have hmem : k.engine ∈ es := by
      refine List.mem_append_right _ ?_
      rw [engines_of_hosted hk]
      exact List.mem_singleton_self _
    obtain ⟨-, lines, s, -, hdrain⟩ := hdrained k.engine hmem
    show (E.drain k.engine.engine).1 = []
    have hlast := hempty s
    rwa [hdrain] at hlast

/-- An engine that prints a line whenever it is called. -/
def scribe : Engine Unit (List String) where
  build _ _ := (.ok ["built"], ())
  start io s := (.ok 0, s ++ ["start"], io)
  mode _ := .realtime
  perform io s := (.ok .more, s ++ ["block"], io)
  cleanup io s := (.ok (), s ++ ["cleanup"], io)
  reset s := (.ok 0, s ++ ["reset"])
  call op _ s := (.ok .unit, s ++ [op.name])
  drain s := (s, [])

/-- Of a performance that is cut off by a new engine nothing is lost: its cleanup is told before its end, and
the new engine tells the rest. -/
theorem told_in_order_scribe :
    let memory := (Memory.allocIo {} 4 1).2
    let inputs : List Input := [.request (.build {}), .request (.start 1 ⟨0, 0⟩), .idle false, .request (.build {})]
    let b := run scribe { factory := (), memory := memory } inputs
    b.life ≠ .crashed ∧
    b.reports = [.message "built", .state .realtimeStarted, .message "start", .message "block",
      .message "cleanup", .state .realtimeEnded, .message "built"] ∧
    b.number = 2 ∧ (∀ h, b.hosted = some h → (scribe.drain h.engine).1 = []) ∧
    ∃ e₁ e₂ : Recorded (List String), e₁.serial = 1 ∧ e₂.serial = 2 ∧
      messages b.reports = e₁.record.flatMap Happening.lines ++ e₂.record.flatMap Happening.lines := by
  intro memory inputs b
  have hl : b.life ≠ .crashed := by decide
  have hreports : b.reports = [.message "built", .state .realtimeStarted, .message "start", .message "block",
      .message "cleanup", .state .realtimeEnded, .message "built"] := by decide +kernel
  have htwo : b.number = 2 := by decide +kernel
  obtain ⟨-, hserials, hnumber, hmessages, -, hempty, -⟩ := told_in_order scribe () memory inputs hl
  obtain ⟨e₁, e₂, hes⟩ := List.length_eq_two.1 (Int.ofNat.inj (hnumber.symm.trans htwo))
  rw [hes] at hserials hmessages
  obtain ⟨h₁, h₂⟩ : e₁.serial = 1 ∧ e₂.serial = 2 := by simpa [List.range'] using hserials
  refine ⟨hl, hreports, htwo, hempty fun _ => rfl, e₁, e₂, h₁, h₂, ?_⟩
  simpa using hmessages

end Bench
end SynthControl
