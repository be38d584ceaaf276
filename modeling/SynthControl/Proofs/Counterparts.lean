import SynthControl.Proofs.Likeness
import SynthControl.Proofs.Worker

/-!
# Workers that are alike

Two workers whose engines were built from the same settings, on memories that are alike, move alike.  The first
may have lines to report from before.

* `Active.shift`, `Request.shift` — what one worker is told of a handle, as the other is told of it;
* `Bench.Like` — two workers that are alike;
* `step_like`, `handle_like` — **they stay so in a step and when they serve a request, and answer alike**, unless
  the answer tells of files;
* `IsRenewed`, `handle_reset_renews` — **a reset leaves an engine that is as new, but for the files**.
-/

namespace SynthControl

/-! ### Workers that are alike -/

/-- The performance on a handle further on. -/
def Active.shift (ρ : Nat) (a : Active) : Active := ⟨a.io.shift ρ, a.mode⟩

/-- One engine, but for the files, and the same performance; both are `heard` while there is one. -/
def Hosted.Like (t : Settings) (ρ : Nat) (heard : Bool) (h' h : Hosted Sine) : Prop :=
  ∃ (e : Sine) (f' f : _) (a : _), h' = ⟨e.dressed t f', Option.map (Active.shift ρ) a⟩ ∧ h = ⟨e.dressed t f, a⟩ ∧
    ∀ x, a = some x → x.io.bank = 0 ∧ heard = true

namespace Bench

variable {config : Config} {ρ : Nat} {old : List String} {heard : Bool} {b' b : Bench Unit Sine}

/-- Two workers whose engines were built from the same settings.  The memory of the first has other regions
before those of the second, and the first has old lines to report before it goes on with the same reports. -/
structure Like (config : Config) (ρ : Nat) (old : List String) (heard : Bool) (b' b : Bench Unit Sine) : Prop where
  hosted : ∃ h' h, b'.hosted = some h' ∧ b.hosted = some h ∧ Hosted.Like config.engine ρ heard h' h
  number' : b'.number = 1
  number : b.number = 1
  memory : Memory.Like config.buffers ρ heard b'.memory b.memory
  reports : b'.reports = old.map .message ++ b.reports
  life' : b'.life = .serving
  life : b.life = .serving

theorem forward_eq {b : Bench Unit Sine} {e : Sine} {a : Option Active} (h : b.hosted = some ⟨e, a⟩) :
    b.forward Sine.engine = { b with
      hosted := some ⟨{ e with printed := [] }, a⟩, reports := b.reports ++ e.printed.map .message } := by
  rw [forward, h]
  rfl

theorem Like.reports_append (h : Like config ρ old heard b' b) (es : List Event) :
    b'.reports ++ es = old.map .message ++ (b.reports ++ es) := by
  rw [h.reports, List.append_assoc]

/-- What is alike stays so with other engines, memories and reports that are alike. -/
theorem Like.update {heard₂ : Bool} (h : Like config ρ old heard b' b) (e : Sine) (f' f : Catalog ByteArray)
    {a : Option Active} (ha : ∀ x, a = some x → x.io.bank = 0 ∧ heard₂ = true) {m' m : Memory}
    (hm : Memory.Like config.buffers ρ heard₂ m' m) {es' es : List Event} (hes : es' = old.map .message ++ es) :
    Like config ρ old heard₂
      { b' with hosted := some ⟨e.dressed config.engine f', a.map (Active.shift ρ)⟩, memory := m', reports := es' }
      { b with hosted := some ⟨e.dressed config.engine f, a⟩, memory := m, reports := es } :=
  ⟨⟨_, _, rfl, rfl, e, f', f, a, rfl, rfl, ha⟩, h.number', h.number, hm, hes, h.life', h.life⟩

theorem Like.active? (h : Like config ρ old heard b' b) : b'.active? = b.active?.map (Active.shift ρ) := by
  obtain ⟨_, _, hb', hb, e, f', f, a, rfl, rfl, -⟩ := h.hosted
  rw [active?_of_hosted hb', active?_of_hosted hb]

theorem Like.heard_of_active (h : Like config ρ old heard b' b) {a : Active} (ha : b.active? = some a) :
    a.io.bank = 0 ∧ heard = true := by
  obtain ⟨_, _, hb', hb, e, f', f, a, rfl, rfl, hx⟩ := h.hosted
  rw [active?_of_hosted hb] at ha
  exact hx _ ha

theorem Like.idle (h : Like config ρ old heard b' b) (ha : b.active? = none) : b'.active? = none := by
  rw [h.active?, ha]
  rfl

theorem Like.busy (h : Like config ρ old heard b' b) {a : Active} (ha : b.active? = some a) :
    b'.active? = some (a.shift ρ) := by
  rw [h.active?, ha]
  rfl

/-- While there is a performance both are `heard` anyway. -/
theorem Like.heard_eq (h : Like config ρ old heard b' b) : (heard || b.active?.isSome) = heard := by
  cases ha : b.active? with
  | none => exact Bool.or_false heard
  | some a =>
    rw [(h.heard_of_active ha).2]
    rfl

theorem Like.raise (h : Like config ρ old heard b' b) : Like config ρ old (heard || b.active?.isSome) b' b := by
  rw [h.heard_eq]
  exact h

theorem forward_like (h : Like config ρ old heard b' b) :
    Like config ρ old heard (b'.forward Sine.engine) (b.forward Sine.engine) := by
  obtain ⟨_, _, hb', hb, e, f', f, a, rfl, rfl, hx⟩ := h.hosted
  rw [forward_eq hb', forward_eq hb]
  exact h.update { e with printed := [] } f' f hx h.memory (h.reports_append _)

theorem finish_like (h : Like config ρ old heard b' b) :
    Like config ρ old heard (b'.finish Sine.engine) (b.finish Sine.engine) := by
  cases ha : b.active? with
  | none =>
    have ha' := h.idle ha
    rw [finish_of_idle _ ha, finish_of_idle _ ha']
    exact h
  | some x =>
    obtain ⟨hbank, rfl⟩ := h.heard_of_active ha
    obtain ⟨_, _, hb', hb, e, f', f, a, rfl, rfl, hx⟩ := h.hosted
    obtain rfl : a = some x := (active?_of_hosted hb).symm.trans ha
    obtain ⟨r, e', g', g, hc', hc, hr⟩ :=
      Sine.cleanup_alike config.engine f' f (b'.memory.io (x.io.shift ρ)) (b.memory.io x.io) e
    rw [finish_ended Sine.engine hb hc hr, finish_ended Sine.engine hb' hc' hr, List.append_assoc, List.append_assoc]
    refine h.update { e' with printed := [] } g' g (a := none) (by simp) ?_ (h.reports_append _)
    exact (h.memory.setIo hbank (h.memory.io hbank)).modifyRegion _ _

theorem forwardUnlessCrashed_like (h : Like config ρ old heard b' b) :
    Like config ρ old heard (if b'.life = .crashed then b' else b'.forward Sine.engine)
      (if b.life = .crashed then b else b.forward Sine.engine) := by
  rw [if_neg (by rw [h.life']; decide), if_neg (by rw [h.life]; decide)]
  exact forward_like h

theorem perform_like (h : Like config ρ old heard b' b) :
    Like config ρ old heard (b'.perform Sine.engine) (b.perform Sine.engine) := by
  cases ha : b.active? with
  | none =>
    rw [perform_of_idle _ ha, perform_of_idle _ (h.idle ha)]
    exact h
  | some x =>
    obtain ⟨hbank, rfl⟩ := h.heard_of_active ha
    obtain ⟨_, _, hb', hb, e, f', f, a, rfl, rfl, hx⟩ := h.hosted
    obtain rfl : a = some x := (active?_of_hosted hb).symm.trans ha
    obtain ⟨r, e', left', left, hp', hp, hleft, hr⟩ := Sine.perform_alike config.engine f' f (h.memory.io hbank) e
    have hm := h.memory.setIo hbank hleft
    by_cases hmore : r = .ok .more
    · subst hmore
      rw [perform_more Sine.engine hb hp, perform_more Sine.engine hb' hp']
      refine h.update { e' with printed := [] } f' f (a := some x) hx ?_ (h.reports_append _)
      obtain ⟨io, mode⟩ := x
      cases mode with
      | realtime => exact hm
      | offline => exact hm.modifyRegion _ _
    · rw [perform_over Sine.engine hb hp hr hmore, perform_over Sine.engine hb' hp' hr hmore]
      exact forwardUnlessCrashed_like (finish_like (h.update e' f' f (a := some x) hx hm h.reports))

theorem Like.io (h : Like config ρ old heard b' b) {a : Active} (ha : b.active? = some a) :
    (b'.memory.io (a.io.shift ρ)).Like config.buffers heard (b.memory.io a.io) :=
  h.memory.io (h.heard_of_active ha).1

theorem isFull_like {io' io : Io} {size : Buffers} (h : io'.Like size true io) : isFull io' = isFull io := by
  simp only [isFull, h.region, h.bank.output.capacity_eq, h.bank.output.unread_eq]

theorem next_like (h : Like config ρ old heard b' b) : b'.next = b.next := by
  cases ha : b.active? with
  | none =>
    have ha' := h.idle ha
    rw [next, next, ha, ha']
  | some a =>
    have ha' := h.busy ha
    obtain ⟨hbank, rfl⟩ := h.heard_of_active ha
    have hregion : b'.memory.region (a.shift ρ).io.region = b.memory.region a.io.region := h.memory.region _
    have hfull : isFull (b'.memory.io (a.shift ρ).io) = isFull (b.memory.io a.io) := isFull_like (h.io ha)
    rw [next, next, ha, ha']
    dsimp only
    rw [hregion, hfull]
    rfl

theorem Like.withMemory (h : Like config ρ old heard b' b) {m' m : Memory}
    (hm : Memory.Like config.buffers ρ heard m' m) :
    Like config ρ old heard { b' with memory := m' } { b with memory := m } :=
  ⟨h.hosted, h.number', h.number, hm, h.reports, h.life', h.life⟩

theorem onRegion_like (h : Like config ρ old heard b' b) (i : Nat) (f : Region → Region) :
    Like config ρ old heard (b'.onRegion (ρ + i) f) (b.onRegion i f) :=
  h.withMemory (h.memory.modifyRegion i f)

theorem awaitCycle_like (notified : Bool) (h : Like config ρ old heard b' b) :
    Like config ρ old heard (b'.awaitCycle notified) (b.awaitCycle notified) := by
  cases ha : b.active? with
  | none =>
    have ha' := h.idle ha
    rw [awaitCycle, awaitCycle, ha, ha']
    exact h
  | some a =>
    have ha' := h.busy ha
    have hregion : b'.memory.region (a.shift ρ).io.region = b.memory.region a.io.region := h.memory.region _
    rw [awaitCycle, awaitCycle, ha, ha']
    dsimp only
    rw [hregion]
    split
    · exact onRegion_like h _ _
    · exact h

/-- **Workers that are alike stay so in a step.** -/
theorem step_like (notified : Bool) (h : Like config ρ old heard b' b) :
    Like config ρ old heard (b'.step Sine.engine notified) (b.step Sine.engine notified) := by
  rw [step, step, next_like h]
  cases b.next with
  | idle => exact h
  | finish => exact finish_like h
  | awaitResume => exact h
  | awaitCycle => exact awaitCycle_like notified h
  | perform => exact perform_like h

/-! ### Requests -/

theorem engine?_like (h : Like config ρ old heard b' b) (number : Int) :
    (∃ err, b'.engine? number = .error err ∧ b.engine? number = .error err) ∨
      ∃ (e : Sine) (f' f : _) (a : _), b'.engine? number = .ok (e.dressed config.engine f') ∧
        b.engine? number = .ok (e.dressed config.engine f) ∧
        b'.hosted = some ⟨e.dressed config.engine f', Option.map (Active.shift ρ) a⟩ ∧
        b.hosted = some ⟨e.dressed config.engine f, a⟩ := by
  obtain ⟨_, _, hb', hb, e, f', f, a, rfl, rfl, -⟩ := h.hosted
  rw [engine?, engine?, h.number', h.number, hb', hb]
  by_cases hn : number = 1
  · rw [if_pos hn, if_pos hn]
    exact .inr ⟨e, f', f, a, rfl, rfl, rfl, rfl⟩
  · rw [if_neg hn, if_neg hn]
    exact .inl ⟨_, rfl, rfl⟩

theorem setEngine_like (h : Like config ρ old heard b' b) (e : Sine) (f' f : Catalog ByteArray) :
    Like config ρ old heard (b'.setEngine (e.dressed config.engine f')) (b.setEngine (e.dressed config.engine f)) := by
  rw [setEngine, setEngine, h.active?]
  exact h.update e f' f (fun x hx => h.heard_of_active hx) h.memory h.reports

/-- An attempt that is no crash is answered, whatever comes of the worker. -/
theorem exists_respond_eq {r : Attempt Value} (hr : r ≠ .crashed) :
    ∃ a, ∀ b : Bench Unit Sine, respond Sine.engine (r, b) = (some a, b.forward Sine.engine) := by
  cases r with
  | crashed => exact absurd rfl hr
  | ok v => exact ⟨_, fun _ => rfl⟩
  | failed e => exact ⟨_, fun _ => rfl⟩

/-- The same attempts are answered alike. -/
theorem respond_like {r' r : Attempt Value} (hr' : r' ≠ .crashed) (hr : r ≠ .crashed) {P : Prop}
    (heq : P → r' = r) (h : Like config ρ old heard b' b) :
    ∃ a' a, (respond Sine.engine (r', b')).1 = some a' ∧ (respond Sine.engine (r, b)).1 = some a ∧
      (P → a' = a) ∧
      Like config ρ old heard (respond Sine.engine (r', b')).2 (respond Sine.engine (r, b)).2 := by
  obtain ⟨a', ha'⟩ := exists_respond_eq hr'
  obtain ⟨a, ha⟩ := exists_respond_eq hr
  rw [ha', ha]
  refine ⟨a', a, rfl, rfl, fun hp => ?_, forward_like h⟩
  obtain rfl := heq hp
  exact Option.some.inj (congrArg Prod.fst ((ha' b).symm.trans (ha b)))

/-- A performance that begins is heard from its first sample on. -/
theorem start_like (h : Like config ρ old heard b' b) (number : Int) {io : Handle} (hbank : io.bank = 0) :
    (b'.start Sine.engine number (io.shift ρ)).1 = (b.start Sine.engine number io).1 ∧
      (b.start Sine.engine number io).1 ≠ .crashed ∧
      Like config ρ old (heard || (b.start Sine.engine number io).2.active?.isSome)
        (b'.start Sine.engine number (io.shift ρ)).2 (b.start Sine.engine number io).2 := by
  rw [start, start]
  cases ha : b.active? with
  | some a =>
    have ha' := h.busy ha
    rw [ha']
    exact ⟨rfl, by simp, h.raise⟩
  | none =>
    rw [h.idle ha]
    rw [Option.isSome_none, if_neg Bool.false_ne_true, if_neg Bool.false_ne_true]
    rcases engine?_like h number with ⟨err, he', he⟩ | ⟨e, f', f, a, he', he, hb', hb⟩
    · rw [he', he]
      exact ⟨rfl, by simp, h.raise⟩
    · obtain rfl : a = none := (active?_of_hosted hb).symm.trans ha
      obtain ⟨r, e₁, left', left, hs', hs, hleft, hr⟩ := Sine.start_alike config.engine f' f (h.memory.io hbank) e
      have hs' : Sine.engine.start _ _ = _ := hs'
      have hs : Sine.engine.start _ _ = _ := hs
      have hm := h.memory.setIo hbank hleft
      -- a start that comes to nothing leaves the engine as it is then
      have hkept := (setEngine_like (h.withMemory hm) e₁ f' f).raise
      rw [he', he]
      dsimp only
      rw [onEngine_eq, onEngine_eq, hs', hs]
      cases r with
      | crashed => exact absurd rfl hr
      | failed err => exact ⟨rfl, by simp, hkept⟩
      | ok status =>
        dsimp only
        split
        · exact ⟨rfl, by simp, hkept⟩
        · refine ⟨rfl, by simp, ?_⟩
          show Like config ρ old (heard || true) _ _
          rw [Bool.or_true]
          obtain ⟨i, k⟩ := io
          obtain rfl : k = 0 := hbank
          refine h.update e₁ f' f (a := some ⟨⟨i, 0⟩, e₁.mode⟩) ?_ ?_ (h.reports_append _)
          · rintro x ⟨⟩
            exact ⟨rfl, rfl⟩
          · exact (hm.modifyBank hm.bank.clear).modifyRegion i fun r => r.set e₁.mode.busy 1

/-- A worker whose engine is as new, but for the files. -/
def IsRenewed (t : Settings) (b : Bench Unit Sine) : Prop :=
  ∃ f, b.hosted = some ⟨(Sine.fresh ⟨t, []⟩).dressed t f, none⟩

theorem reset_like (h : Like config ρ old heard b' b) (number : Int) :
    (b'.reset Sine.engine number).1 = (b.reset Sine.engine number).1 ∧
      (b.reset Sine.engine number).1 ≠ .crashed ∧
      Like config ρ old heard (b'.reset Sine.engine number).2 (b.reset Sine.engine number).2 := by
  have hended := finish_like h
  rw [reset, reset]
  rw [if_neg (by rw [hended.life']; decide), if_neg (by rw [hended.life]; decide)]
  rcases engine?_like hended number with ⟨err, he', he⟩ | ⟨e, f', f, a, he', he, -, -⟩
  · rw [he', he]
    exact ⟨rfl, by simp, hended⟩
  · rw [he', he]
    refine ⟨rfl, ?_, setEngine_like hended ((Sine.fresh ⟨config.engine, []⟩).print "engine reset") f' f⟩
    show Attempt.ok (Value.int 0) ≠ .crashed
    simp

theorem call_like (h : Like config ρ old heard b' b) (number : Int) (op : Operation) (args : List Value) :
    (op.tellsFiles = false →
        (b'.call Sine.engine number op args).1 = (b.call Sine.engine number op args).1) ∧
      (b'.call Sine.engine number op args).1 ≠ .crashed ∧ (b.call Sine.engine number op args).1 ≠ .crashed ∧
      Like config ρ old heard (b'.call Sine.engine number op args).2 (b.call Sine.engine number op args).2 := by
  rw [call, call]
  rcases engine?_like h number with ⟨err, he', he⟩ | ⟨e, f', f, a, he', he, -, -⟩
  · rw [he', he]
    exact ⟨fun _ => rfl, by simp, by simp, h⟩
  · obtain ⟨v', v, e₁, g', g, hc', hc, hv, hnot', hnot⟩ := Sine.call_alike config.engine f' f op args e
    have hc' : Sine.engine.call op args (e.dressed config.engine f') = _ := hc'
    have hc : Sine.engine.call op args (e.dressed config.engine f) = _ := hc
    simp only [he', he, hc', hc]
    exact ⟨hv, hnot', hnot, setEngine_like h e₁ g' g⟩

end Bench

/-- A request of one worker, as one of a worker that is alike. -/
def Request.shift (ρ : Nat) : Request → Request
  | .start n io => .start n (io.shift ρ)
  | r => r

/-- The answer tells something of the files. -/
def Request.tellsFiles : Request → Bool
  | .call _ op _ => op.tellsFiles
  | _ => false

/-- A request of a client: a start on the one bank, a reset, or a call. -/
def Request.IsOrdinary : Request → Prop
  | .start _ io => io.bank = 0
  | .reset _ | .call _ _ _ => True
  | .build _ | .shutdown => False

namespace Bench

variable {config : Config} {ρ : Nat} {old : List String} {heard : Bool} {b' b : Bench Unit Sine}

/-- **Workers that are alike stay so when they serve a request**, and answer it alike unless the answer tells
something of the files. -/
theorem handle_like (h : Like config ρ old heard b' b) {r : Request} (hr : r.IsOrdinary) :
    ∃ a' a, (b'.handle Sine.engine (r.shift ρ)).1 = some a' ∧ (b.handle Sine.engine r).1 = some a ∧
      (r.tellsFiles = false → a' = a) ∧
      Like config ρ old (heard || (b.handle Sine.engine r).2.active?.isSome)
        (b'.handle Sine.engine (r.shift ρ)).2 (b.handle Sine.engine r).2 := by
  cases r with
  | build setup => exact hr.elim
  | shutdown => exact hr.elim
  | start n io =>
    obtain ⟨heq, hnot, hlike⟩ := start_like h n hr
    obtain ⟨a', a, ha', ha, haa, hafter⟩ :=
      respond_like (P := True) (fun hx => hnot (heq ▸ hx)) hnot (fun _ => heq) hlike
    refine ⟨a', a, ha', ha, fun _ => haa trivial, ?_⟩
    rw [handle, respond_active?]
    exact hafter
  | reset n =>
    obtain ⟨heq, hnot, hlike⟩ := reset_like h n
    obtain ⟨a', a, ha', ha, haa, hafter⟩ :=
      respond_like (P := True) (fun hx => hnot (heq ▸ hx)) hnot (fun _ => heq) hlike
    refine ⟨a', a, ha', ha, fun _ => haa trivial, ?_⟩
    exact hafter.raise
  | call n op args =>
    obtain ⟨heq, hnot', hnot, hlike⟩ := call_like h n op args
    obtain ⟨a', a, ha', ha, haa, hafter⟩ := respond_like hnot' hnot heq hlike
    refine ⟨a', a, ha', ha, haa, ?_⟩
    exact hafter.raise

theorem drained_reset (t : Settings) (f : Catalog ByteArray) :
    ({ ((Sine.fresh ⟨t, []⟩).print "engine reset").dressed t f with printed := [] } : Sine) =
      (Sine.fresh ⟨t, []⟩).dressed t f := by
  simp only [Sine.dressed, Sine.print, Sine.fresh]

/-- A worker that has served a reset has an engine that is as new. -/
theorem reset_renews {e : Sine} {f : Catalog ByteArray} {a : Option Active}
    (hb : (b.finish Sine.engine).hosted = some ⟨e.dressed config.engine f, a⟩) (hn : (b.finish Sine.engine).number = 1)
    (hl : (b.finish Sine.engine).life = .serving) : (b.handle Sine.engine (.reset 1)).2.IsRenewed config.engine := by
  have hidle : (b.finish Sine.engine).active? = none := (finish_move Sine.engine b).2
  have he : (b.finish Sine.engine).engine? 1 = .ok (e.dressed config.engine f) := by
    rw [engine?, hn, if_pos rfl, hb]
  let e₁ := ((Sine.fresh ⟨config.engine, []⟩).print "engine reset").dressed config.engine f
  have hreset : b.reset Sine.engine 1 = (.ok (.int 0), (b.finish Sine.engine).setEngine e₁) := by
    rw [reset, if_neg (by rw [hl]; decide), he]
    rfl
  have hhosted := setEngine_hosted (b.finish Sine.engine) e₁
  rw [hidle] at hhosted
  refine ⟨f, ?_⟩
  rw [handle, hreset, respond, forward_eq hhosted, drained_reset]

theorem handle_reset_renews (h : Like config ρ old heard b' b) :
    (b'.handle Sine.engine (.reset 1)).2.IsRenewed config.engine ∧
      (b.handle Sine.engine (.reset 1)).2.IsRenewed config.engine := by
  have hended := finish_like h
  obtain ⟨_, _, hb', hb, e, f', f, a, rfl, rfl, -⟩ := hended.hosted
  exact ⟨reset_renews hb' hended.number' hended.life', reset_renews hb hended.number hended.life⟩

end Bench
end SynthControl
