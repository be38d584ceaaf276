import SynthControl.Proofs.Misdirected
import SynthControl.Proofs.Handling

/-!
# Requests reach the engine that they name

An engine that was built is named by a number, and requests for it carry that number.  The worker counts the
engines that it has built, and keeps the one that it hosts beside the count: an engine that cannot be built takes
the hosted one away and leaves the count.  So the count alone does not tell what is hosted, and the two have to be
kept together.

* `Bench.grant`, `granted` — the number that a building answers with, and all numbers of a run;
* `Bench.target`, `handle_congr` — the engine that a request is executed on, and **no other engine is started,
  reset or called**;
* `Numbered`, `feed_numbered` — **what an input does to the count and to the hosted engine**;
* `Paired`, `run_paired` — **the hosted engine is the one that was built last, and the count is its number**;
* `Created`, `created_of_hosted` — **it was created by the building that answered with that number**, and none was
  asked for since;
* `not_hosts_run`, `hosted_none_run` — an engine that is not hosted any more is never hosted again, and after a
  building that failed there is none before the next one that does not;
* `requests_reach_named` — all of this.
-/

namespace SynthControl

open Relation

/-! ### The engine that a request is executed on -/

/-- Two engines differ at most in how they are started, reset and called. -/
structure Engine.SameBesides {φ σ : Type} (E E' : Engine φ σ) : Prop where
  build : E'.build = E.build
  mode : E'.mode = E.mode
  perform : E'.perform = E.perform
  cleanup : E'.cleanup = E.cleanup
  drain : E'.drain = E.drain

/-- In this state two engines are started, reset and called alike. -/
structure Engine.SameAt {φ σ : Type} (E E' : Engine φ σ) (e : σ) : Prop where
  start : ∀ io, E'.start io e = E.start io e
  reset : E'.reset e = E.reset e
  call : ∀ op args, E'.call op args e = E.call op args e

namespace Bench

variable {φ σ : Type}

/-- The engine that a request is executed on: the hosted one, if it has the number of the request.  A running
performance is not started again, and a reset ends it first. -/
def target (E : Engine φ σ) (b : Bench φ σ) : Request → Option σ
  | .start number _ => if b.active?.isSome then none else (b.engine? number).toOption
  | .reset number => if (b.finish E).life = .crashed then none else ((b.finish E).engine? number).toOption
  | .call number _ _ => (b.engine? number).toOption
  | .build _ | .shutdown => none

section

variable {E E' : Engine φ σ} (h : E.SameBesides E') (b : Bench φ σ)
include h

theorem finish_congr : b.finish E' = b.finish E := by
  unfold finish forward
  rw [h.cleanup, h.drain]

theorem respond_congr (r : Attempt Value × Bench φ σ) : respond E' r = respond E r := by
  unfold respond forward
  rw [h.drain]

/-- **No engine is started, reset or called but the one that the request is executed on.** -/
theorem handle_congr (r : Request) (ht : ∀ e, b.target E r = some e → E.SameAt E' e) :
    b.handle E' r = b.handle E r := by
  have hf := finish_congr h b
  cases r with
  | build setup => rw [handle, handle, respond_congr h, build, build, hf, h.build]
  | shutdown => rw [handle, handle, leave, leave, hf]
  | start number io =>
    rw [handle, handle, respond_congr h, start, start, h.mode]
    rw [target] at ht
    cases ha : b.active?.isSome with
    | true => rfl
    | false =>
      rw [ha] at ht
      cases he : b.engine? number with
      | error err => rfl
      | ok e =>
        have hs : ∀ io, E'.start io e = E.start io e := (ht e (by rw [he]; rfl)).start
        simp only [onEngine_eq, hs]
  | reset number =>
    rw [handle, handle, respond_congr h, reset, reset, hf]
    rw [target] at ht
    by_cases hc : (b.finish E).life = .crashed
    · rw [if_pos hc, if_pos hc]
    · rw [if_neg hc] at ht
      rw [if_neg hc, if_neg hc]
      cases he : (b.finish E).engine? number with
      | error err => rfl
      | ok e => simp only [(ht e (by rw [he]; rfl)).reset]
  | call number op args =>
    rw [handle, handle, respond_congr h, call, call]
    rw [target] at ht
    cases he : b.engine? number with
    | error err => rfl
    | ok e => simp only [(ht e (by rw [he]; rfl)).call]

end

/-- What a request is executed on is hosted under the number of the request, but for the end of a performance. -/
theorem hosted_of_target {E : Engine φ σ} {b : Bench φ σ} {r : Request} {e : σ} (h : b.target E r = some e) :
    r.number? = some b.number ∧ ∃ k, b.hosted = some k ∧ ReflTransGen E.Handles k.engine e := by
  have hengine : ∀ {c : Bench φ σ} {number : Int}, (c.engine? number).toOption = some e →
      number = c.number ∧ ∃ a, c.hosted = some ⟨e, a⟩ := by
    intro c number he
    refine hosted_of_engine? ?_
    cases hq : c.engine? number with
    | error err => rw [hq] at he; cases he
    | ok e' => rw [hq] at he; exact congrArg Except.ok (Option.some.inj he)
  cases r with
  | build setup => cases h
  | shutdown => cases h
  | start number io =>
    rw [target] at h
    split at h
    · cases h
    · obtain ⟨hn, a, hb⟩ := hengine h
      exact ⟨congrArg some hn, _, hb, .refl⟩
  | reset number =>
    rw [target] at h
    split at h
    · cases h
    · obtain ⟨hn, a, hb⟩ := hengine h
      rw [finish_number] at hn
      exact ⟨congrArg some hn, (finish_hosted hb).2⟩
  | call number op args =>
    obtain ⟨hn, a, hb⟩ := hengine h
    exact ⟨congrArg some hn, _, hb, .refl⟩

/-- A request for an engine that is not hosted is executed on none. -/
theorem target_of_not_hosts {E : Engine φ σ} {b : Bench φ σ} {r : Request}
    (h : ∀ number, r.number? = some number → ¬b.Hosts number) : b.target E r = none := by
  by_contra ht
  obtain ⟨e, he⟩ := Option.ne_none_iff_exists'.1 ht
  obtain ⟨hn, k, hk, -⟩ := hosted_of_target he
  exact h _ hn ⟨rfl, by rw [hk]; exact nofun⟩

/-! ### The count -/

/-- No engine was asked for: the factory and the count of its engines are as they were. -/
structure Steady (b c : Bench φ σ) : Prop where
  factory_eq : c.factory = b.factory
  number_eq : c.number = b.number

theorem Steady.refl (b : Bench φ σ) : Steady b b := ⟨rfl, rfl⟩

theorem Steady.trans {b c d : Bench φ σ} (h : Steady b c) (h' : Steady c d) : Steady b d :=
  ⟨h'.factory_eq.trans h.factory_eq, h'.number_eq.trans h.number_eq⟩

section

variable (E : Engine φ σ) (b : Bench φ σ)

theorem steady_forward : Steady b (b.forward E) := by
  rw [forward]
  split <;> exact ⟨rfl, rfl⟩

theorem steady_finish : Steady b (b.finish E) := by
  refine ⟨?_, finish_number E b⟩
  cases ha : b.active? with
  | none => rw [finish_of_idle E ha]
  | some a =>
    obtain ⟨e, hb⟩ := hosted_of_active? ha
    rcases hc : E.cleanup (b.memory.io a.io) e with ⟨r, e', io⟩
    by_cases hr : r = .crashed
    · subst hr
      rw [finish_crashed E hb hc]
    · rw [finish_ended E hb hc hr]

theorem steady_perform : Steady b (b.perform E) := by
  cases ha : b.active? with
  | none =>
    rw [perform_of_idle E ha]
    exact .refl b
  | some a =>
    obtain ⟨e, hb⟩ := hosted_of_active? ha
    rcases hp : E.perform (b.memory.io a.io) e with ⟨r, e', io⟩
    by_cases hr : r = .crashed
    · subst hr
      rw [perform_crashed E hb hp]
      exact ⟨rfl, rfl⟩
    · by_cases hm : r = .ok .more
      · subst hm
        rw [perform_more E hb hp]
        exact ⟨rfl, rfl⟩
      · rw [perform_over E hb hp hr hm]
        have hf := steady_finish E
          ({ b with hosted := some ⟨e', some a⟩, memory := b.memory.setIo a.io io } : Bench φ σ)
        dsimp only
        split
        · exact ⟨hf.factory_eq, hf.number_eq⟩
        · exact .trans ⟨hf.factory_eq, hf.number_eq⟩ (steady_forward E _)

theorem steady_step (notified : Bool) : Steady b (b.step E notified) := by
  rw [step]
  split
  · exact .refl b
  · exact .refl b
  · exact steady_finish E b
  · rw [awaitCycle]
    split
    · exact .refl b
    · split <;> exact ⟨rfl, rfl⟩
  · exact steady_perform E b

theorem steady_respond {r : Attempt Value × Bench φ σ} (h : Steady b r.2) : Steady b (respond E r).2 := by
  obtain ⟨v, c⟩ := r
  cases v with
  | ok v => exact h.trans (steady_forward E c)
  | failed e => exact h.trans (steady_forward E c)
  | crashed => exact ⟨h.factory_eq, h.number_eq⟩

/-- Only a building counts. -/
theorem steady_handle {r : Request} (hr : ∀ setup, r ≠ .build setup) : Steady b (b.handle E r).2 := by
  have hf := steady_finish E b
  cases r with
  | build setup => exact absurd rfl (hr setup)
  | start number io =>
    refine steady_respond E b ?_
    have hs := start_cases E number io b
    generalize b.start E number io = q at hs ⊢
    cases hs <;> exact ⟨rfl, rfl⟩
  | reset number =>
    refine steady_respond E b ?_
    unfold reset
    dsimp only
    split
    · exact hf
    · split
      · exact hf
      · split <;> exact ⟨hf.factory_eq, hf.number_eq⟩
  | call number op args =>
    refine steady_respond E b ?_
    rw [call]
    split <;> exact ⟨rfl, rfl⟩
  | shutdown =>
    rw [handle, leave]
    dsimp only
    split <;> exact ⟨hf.factory_eq, hf.number_eq⟩

end

/-- The number that a building answers with, as the control side reads it. -/
def grant (E : Engine φ σ) (b : Bench φ σ) : Input → Option Int
  | .request (.build setup) =>
    if b.life = .serving then
      match (b.handle E (.build setup)).1 with
      | some (.ok v) => v.asInt?
      | _ => none
    else none
  | _ => none

/-- The numbers that buildings have answered with in a run. -/
def granted (E : Engine φ σ) (b : Bench φ σ) : List Input → List Int
  | [] => []
  | i :: inputs => (b.grant E i).toList ++ granted E (feed E b i) inputs

/-- What an input does to the count and to the hosted engine. -/
inductive Numbered (E : Engine φ σ) (b : Bench φ σ) (i : Input) (c : Bench φ σ) : Prop where
  /-- It asks for no engine, or the worker is gone; what is hosted then is what was hosted before. -/
  | keeps (hg : b.grant E i = none) (hs : Steady b c)
      (hi : c.life = .serving → ∀ setup, i ≠ .request (.build setup))
      (hh : ∀ k', c.hosted = some k' → ∃ k, b.hosted = some k ∧ ReflTransGen E.Handles k.engine k'.engine)
  | builds {setup : Setup} {e : σ} {f : φ} (hi : i = .request (.build setup))
      (hb : E.build setup b.factory = (.ok e, f)) (hg : b.grant E i = some (b.number + 1))
      (hn : c.number = b.number + 1) (hf : c.factory = f) (hh : c.hosted = some ⟨(E.drain e).2, none⟩)
  | fails {setup : Setup} {err : EngineError} {f : φ} (hi : i = .request (.build setup))
      (hb : E.build setup b.factory = (.error err, f)) (hg : b.grant E i = none)
      (hn : c.number = b.number) (hf : c.factory = f) (hh : c.hosted = none)

section

variable (E : Engine φ σ) (b : Bench φ σ)

/-- What hosts an engine after an input that asks for none has hosted it before. -/
theorem hosted_feed {i : Input} (hi : ∀ setup, i ≠ .request (.build setup)) {k' : Hosted σ}
    (hk : (feed E b i).hosted = some k') : ∃ k, b.hosted = some k ∧ ReflTransGen E.Handles k.engine k'.engine := by
  have htends : ∀ {e e'}, ReflTransGen E.Tends e e' → ReflTransGen E.Handles e e' :=
    fun h => kept_of_reflTransGen (fun _ _ ht hs => hs.tail (.tends ht)) h .refl
  have hfed := feed_cases E b i
  rw [hk] at hfed
  cases hfed with
  | stays hb h => exact ⟨_, hb, htends h⟩
  | begins _ _ hb _ hs h => exact ⟨_, hb, .head (.starts hs) (htends h)⟩
  | rests hb h => exact ⟨_, hb, h⟩
  | builds hi' _ _ => exact absurd hi' (hi _)

/-- A building ends the performance first, and only then asks for an engine. -/
theorem feed_build_numbered (hl : b.life = .serving) (setup : Setup) :
    Numbered E b (.request (.build setup)) (feed E b (.request (.build setup))) := by
  have hf := steady_finish E b
  have hg : b.grant E (.request (.build setup)) =
      match (b.handle E (.build setup)).1 with
      | some (.ok v) => v.asInt?
      | _ => none := by
    rw [grant, if_pos hl]
  rw [feed, if_pos hl]
  rw [handle, build] at hg ⊢
  dsimp only at hg ⊢
  by_cases hc : (b.finish E).life = .crashed
  · rw [if_pos hc] at hg ⊢
    exact .keeps hg ⟨hf.factory_eq, hf.number_eq⟩ (fun h => by cases h) fun k' hk => (finish_hosted hk).2
  · rw [if_neg hc] at hg ⊢
    rcases hb : E.build setup b.factory with ⟨r, f⟩
    rw [hf.factory_eq, hf.number_eq, hb] at hg ⊢
    cases r with
    | ok e => exact .builds rfl hb hg rfl rfl rfl
    | error err => exact .fails rfl hb hg rfl rfl rfl

/-- **An input counts if it builds an engine, which is hosted then, and takes the hosted one away if it fails.** -/
theorem feed_numbered (i : Input) : Numbered E b i (feed E b i) := by
  cases i with
  | others m => exact .keeps rfl ⟨rfl, rfl⟩ (fun _ _ h => by cases h) fun k' hk => ⟨k', hk, .refl⟩
  | idle notified =>
    refine .keeps rfl ?_ (fun _ _ h => by cases h) fun k' hk => hosted_feed E b (fun _ h => by cases h) hk
    rw [feed]
    split
    · exact steady_step E b notified
    · exact .refl b
  | request r =>
    by_cases hl : b.life = .serving
    · by_cases hr : ∃ setup, r = .build setup
      · obtain ⟨setup, rfl⟩ := hr
        exact feed_build_numbered E b hl setup
      · have hi : ∀ setup, Input.request r ≠ .request (.build setup) := by
          intro setup h
          exact hr ⟨setup, Input.request.inj h⟩
        refine .keeps ?_ ?_ (fun _ => hi) fun k' hk => hosted_feed E b hi hk
        · cases r with
          | build setup => exact absurd rfl (hi setup)
          | _ => rfl
        · rw [feed, if_pos hl]
          exact steady_handle E b fun setup h => hr ⟨setup, h⟩
    · rw [feed, if_neg hl]
      refine .keeps ?_ (.refl b) (fun h => absurd h hl) fun k' hk => ⟨k', hk, .refl⟩
      cases r with
      | build setup => rw [grant, if_neg hl]
      | _ => rfl

end

/-! ### Runs -/

theorem serving_of_feed {E : Engine φ σ} {b : Bench φ σ} {i : Input} (h : (feed E b i).life = .serving) :
    b.life = .serving := by
  by_contra hl
  cases i with
  | others m => exact hl h
  | _ =>
    rw [feed, if_neg hl] at h
    exact hl h

/-- A worker that serves has always served. -/
theorem serving_of_run {E : Engine φ σ} {b : Bench φ σ} {inputs : List Input}
    (h : (run E b inputs).life = .serving) : b.life = .serving := by
  induction inputs generalizing b with
  | nil => exact h
  | cons i inputs ih => exact serving_of_feed (ih h)

/-- A building that is answered with no number leaves no engine, if the worker is still there. -/
theorem hosted_of_failed {E : Engine φ σ} {b : Bench φ σ} {setup : Setup}
    (hl : (feed E b (.request (.build setup))).life = .serving)
    (hg : b.grant E (.request (.build setup)) = none) : (feed E b (.request (.build setup))).hosted = none := by
  cases feed_numbered E b (.request (.build setup)) with
  | keeps _ _ hi _ => exact absurd rfl (hi hl setup)
  | builds _ _ hgrant _ _ _ =>
    rw [hgrant] at hg
    cases hg
  | fails _ _ _ _ _ hh => exact hh

/-- Where no engine is hosted, none is hosted before the next building that succeeds. -/
theorem hosted_none_run {E : Engine φ σ} {b : Bench φ σ} (hb : b.hosted = none) {inputs : List Input}
    (hg : granted E b inputs = []) : (run E b inputs).hosted = none := by
  induction inputs generalizing b with
  | nil => exact hb
  | cons i inputs ih =>
    obtain ⟨hnow, hlater⟩ := List.append_eq_nil_iff.1 hg
    refine ih ?_ hlater
    cases feed_numbered E b i with
    | keeps _ _ _ hh =>
      by_contra hc
      obtain ⟨k', hk'⟩ := Option.ne_none_iff_exists'.1 hc
      obtain ⟨k, hk, -⟩ := hh k' hk'
      rw [hb] at hk
      cases hk
    | builds _ _ hgrant _ _ _ =>
      rw [hgrant] at hnow
      cases hnow
    | fails _ _ _ _ _ hh => exact hh

/-- An engine that was counted and is not hosted any more is never hosted again. -/
theorem not_hosts_run (E : Engine φ σ) {b : Bench φ σ} {number : Int} (hle : number ≤ b.number)
    (hb : ¬b.Hosts number) (inputs : List Input) : ¬(run E b inputs).Hosts number := by
  induction inputs generalizing b with
  | nil => exact hb
  | cons i inputs ih =>
    suffices number ≤ (feed E b i).number ∧ ¬(feed E b i).Hosts number from ih this.1 this.2
    cases feed_numbered E b i with
    | keeps _ hs _ hh =>
      rw [hs.number_eq]
      refine ⟨hle, fun hc => hb ⟨hc.1.trans hs.number_eq, fun hnone => ?_⟩⟩
      obtain ⟨k', hk'⟩ := Option.ne_none_iff_exists'.1 hc.2
      obtain ⟨k, hk, -⟩ := hh k' hk'
      rw [hnone] at hk
      cases hk
    | builds _ _ _ hn _ _ =>
      -- the count has left the number behind
      have hlt : number < (feed E b i).number := by
        rw [hn]
        exact Int.lt_add_one_of_le hle
      exact ⟨Int.le_of_lt hlt, fun hc => absurd hc.1 (Int.ne_of_lt hlt)⟩
    | fails _ _ _ hn _ hh =>
      rw [hn]
      exact ⟨hle, fun hc => hc.2 hh⟩

/-- An engine was created by the building that answered with this number, and no engine was asked for since. -/
def Created (E : Engine φ σ) (b : Bench φ σ) (inputs : List Input) (number : Int) (e : σ) : Prop :=
  ∃ before setup after e₀ f, inputs = before ++ .request (.build setup) :: after ∧
    (run E b before).grant E (.request (.build setup)) = some number ∧
    (∀ setup', .request (.build setup') ∉ after) ∧
    E.build setup (run E b before).factory = (.ok e₀, f) ∧ ReflTransGen E.Handles e₀ e

/-- **The hosted engine was created by the building that answered with the count.** -/
theorem created_of_hosted (E : Engine φ σ) {b : Bench φ σ} (hb : b.hosted = none) {inputs : List Input}
    (hl : (run E b inputs).life = .serving) {k : Hosted σ} (hk : (run E b inputs).hosted = some k) :
    Created E b inputs (run E b inputs).number k.engine := by
  induction inputs using List.reverseRecOn generalizing k with
  | nil =>
    rw [show run E b [] = b from rfl, hb] at hk
    cases hk
  | append_singleton is i ih =>
    rw [run_append] at hl hk ⊢
    show Created E b _ (feed E (run E b is) i).number k.engine
    cases feed_numbered E (run E b is) i with
    | keeps _ hs hi hh =>
      obtain ⟨k₀, hk₀, hsince⟩ := hh k hk
      obtain ⟨before, setup, after, e₀, f, rfl, hgrant, hnone, hbuild, hbefore⟩ := ih (serving_of_feed hl) hk₀
      rw [hs.number_eq]
      refine ⟨before, setup, after ++ [i], e₀, f, by simp, hgrant, fun setup' hm => ?_, hbuild,
        hbefore.trans hsince⟩
      rcases List.mem_append.1 hm with hm | hm
      · exact hnone setup' hm
      · exact hi hl setup' (List.mem_singleton.1 hm).symm
    | @builds setup e f hi hbuild hgrant hn _ hh =>
      subst hi
      have hdrained : (⟨(E.drain e).2, none⟩ : Hosted σ) = k := Option.some.inj (hh.symm.trans hk)
      rw [hn, ← hdrained]
      exact ⟨is, setup, [], e, f, rfl, hgrant, fun _ => List.not_mem_nil, hbuild, .single (.tends (.drains e))⟩
    | fails _ _ _ _ _ hh => cases hh.symm.trans hk

/-! ### Serial numbers -/

variable {E : Engine φ σ}

/-- Whatever is done with an engine that keeps a record, it keeps its serial number. -/
theorem serial_of_handles {e e' : Recorded σ} (h : E.recorded.Handles e e') : e'.serial = e.serial := by
  cases h with
  | tends h =>
    cases h with
    | performs h => exact (congrArg (fun q => q.2.1.serial) h).symm
    | calls op args => rfl
    | drains => rfl
  | starts h => exact (congrArg (fun q => q.2.1.serial) h).symm
  | cleans h => exact (congrArg (fun q => q.2.1.serial) h).symm
  | resets => rfl

theorem serial_of_handled {e e' : Recorded σ} (h : ReflTransGen E.recorded.Handles e e') :
    e'.serial = e.serial :=
  kept_of_reflTransGen (P := fun e'' => e''.serial = e.serial)
    (fun _ _ hstep hs => (serial_of_handles hstep).trans hs) h rfl

/-- The count is that of the factory, and the hosted engine is the one that was counted last. -/
structure Paired (b : Bench (φ × Nat) (Recorded σ)) : Prop where
  number_eq : b.number = b.factory.2
  serial_eq : ∀ k, b.hosted = some k → k.engine.serial = b.number

/-- **Every input keeps the count and the hosted engine paired**, and answers with the next number if it counts. -/
theorem Paired.feed {b : Bench (φ × Nat) (Recorded σ)} (h : Paired b) (i : Input) :
    Paired (feed E.recorded b i) ∧
      (b.grant E.recorded i).toList =
        (List.range' (b.factory.2 + 1) ((feed E.recorded b i).factory.2 - b.factory.2)).map Int.ofNat ∧
      b.factory.2 ≤ (feed E.recorded b i).factory.2 := by
  cases feed_numbered E.recorded b i with
  | keeps hg hs _ hh =>
    refine ⟨⟨by rw [hs.number_eq, hs.factory_eq, h.number_eq], fun k' hk' => ?_⟩, ?_, by rw [hs.factory_eq]⟩
    · obtain ⟨k, hk, hsince⟩ := hh k' hk'
      rw [serial_of_handled hsince, h.serial_eq k hk, hs.number_eq]
    · rw [hg, hs.factory_eq, Nat.sub_self]
      rfl
  | @builds setup e f _ hbuild hg hn hf hh =>
    obtain ⟨hserial, hnext⟩ : e.serial = b.factory.2 + 1 ∧ f.2 = b.factory.2 + 1 := by
      simp only [Engine.recorded] at hbuild
      split at hbuild <;> cases hbuild
      exact ⟨rfl, rfl⟩
    refine ⟨⟨by rw [hn, hf, hnext, h.number_eq]; rfl, fun k hk => ?_⟩, ?_, by rw [hf, hnext]; exact Nat.le_succ _⟩
    · obtain rfl : (⟨(E.recorded.drain e).2, none⟩ : Hosted (Recorded σ)) = k := Option.some.inj (hh.symm.trans hk)
      rw [hn, h.number_eq]
      exact congrArg Int.ofNat hserial
    · rw [hg, hf, hnext, h.number_eq, Nat.add_sub_cancel_left]
      rfl
  | @fails setup err f _ hbuild hg hn hf hh =>
    have hsame : f.2 = b.factory.2 := by
      simp only [Engine.recorded] at hbuild
      split at hbuild <;> cases hbuild
      rfl
    refine ⟨⟨by rw [hn, hf, hsame, h.number_eq], fun k hk => ?_⟩, ?_, by rw [hf, hsame]⟩
    · cases hh.symm.trans hk
    · rw [hg, hf, hsame, Nat.sub_self]
      rfl

/-- **In a run the numbers are answered one after another**, up to the count. -/
theorem run_paired {b : Bench (φ × Nat) (Recorded σ)} (h : Paired b) (inputs : List Input) :
    Paired (run E.recorded b inputs) ∧ b.factory.2 ≤ (run E.recorded b inputs).factory.2 ∧
      granted E.recorded b inputs =
        (List.range' (b.factory.2 + 1) ((run E.recorded b inputs).factory.2 - b.factory.2)).map Int.ofNat := by
  induction inputs generalizing b with
  | nil =>
    refine ⟨h, Nat.le_refl _, ?_⟩
    rw [show run E.recorded b [] = b from rfl, Nat.sub_self]
    rfl
  | cons i inputs ih =>
    obtain ⟨hfed, hnow, hle⟩ := h.feed (E := E) i
    obtain ⟨hrun, hle', hlater⟩ := ih hfed
    refine ⟨hrun, hle.trans hle', ?_⟩
    have hsum : (run E.recorded b (i :: inputs)).factory.2 - b.factory.2 =
        ((Bench.feed E.recorded b i).factory.2 - b.factory.2) +
          ((run E.recorded (Bench.feed E.recorded b i) inputs).factory.2 - (Bench.feed E.recorded b i).factory.2) := by
      show (run E.recorded (Bench.feed E.recorded b i) inputs).factory.2 - _ = _
      omega
    rw [granted, hnow, hlater, hsum, ← List.range'_append_1, List.map_append]
    congr 3
    omega

/-! ### Every request -/

/-- **Requests reach the engine that they name, and no other.**  For every engine, after any requests and steps, and
with the serial number that its factory gave to every engine that it built:

* the worker is the same as without these;
* the buildings that succeeded have answered with one, two, three and so on, in order;
* a request is executed on an engine whose serial number is the number of the request, and which was created by the
  building that answered with that number; no engine was asked for since;
* no other engine is started, reset or called: the worker does the same with any engine that does the same on the
  one that the request is executed on;
* after a building that failed, requests are executed on none before the next building that succeeds;
* a number that was answered, and whose engine is not hosted any more, is never served again. -/
theorem requests_reach_named (E : Engine φ σ) (factory : φ) (memory : Memory) (inputs : List Input) :
    let start : Bench (φ × Nat) (Recorded σ) := { factory := (factory, 0), memory := memory }
    let b := run E.recorded start inputs
    Mirrored Prod.fst Recorded.engine Eq b (run E { factory := factory, memory := memory } inputs) ∧
    granted E.recorded start inputs = (List.range' 1 b.factory.2).map Int.ofNat ∧
    (∀ r e, b.life = .serving → b.target E.recorded r = some e →
      r.number? = some (e.serial : Int) ∧ Created E.recorded start inputs e.serial e) ∧
    (∀ r E', E.recorded.SameBesides E' → (∀ e, b.target E.recorded r = some e → E.recorded.SameAt E' e) →
      b.handle E' r = b.handle E.recorded r) ∧
    (∀ before setup after, inputs = before ++ .request (.build setup) :: after → b.life = .serving →
      (run E.recorded start before).grant E.recorded (.request (.build setup)) = none →
      granted E.recorded (run E.recorded start (before ++ [.request (.build setup)])) after = [] →
      ∀ r, b.target E.recorded r = none) ∧
    ∀ number ∈ granted E.recorded start inputs, ¬b.Hosts number →
      ∀ later r, r.number? = some number → (run E.recorded b later).target E.recorded r = none := by
  intro start b
  have hm : Mirrored Prod.fst Recorded.engine Eq b (run E { factory := factory, memory := memory } inputs) :=
    run_mirrored E.recorded_mirrors inputs ⟨rfl, rfl, rfl, rfl, rfl, rfl⟩
  obtain ⟨hpaired, -, hgranted⟩ := run_paired (E := E) (b := start) ⟨rfl, fun k hk => by cases hk⟩ inputs
  rw [show start.factory.2 = 0 from rfl, Nat.zero_add, Nat.sub_zero] at hgranted
  refine ⟨hm, hgranted, fun r e hl ht => ?_, fun r E' hE ht => handle_congr hE b r ht,
    fun before setup after hinputs hl hfails hnone r => ?_, fun number hmem hhosts later r hr => ?_⟩
  · obtain ⟨hn, k, hk, hsince⟩ := hosted_of_target ht
    have hserial : (e.serial : Int) = b.number := by
      rw [serial_of_handled hsince]
      exact hpaired.serial_eq k hk
    obtain ⟨before, setup, after, e₀, f, hinputs, hgrant, hlast, hbuild, hbefore⟩ :=
      created_of_hosted E.recorded (b := start) rfl hl hk
    rw [hserial]
    exact ⟨hn, before, setup, after, e₀, f, hinputs, hgrant, hlast, hbuild, hbefore.trans hsince⟩
  · have hsplit : b = run E.recorded (run E.recorded start (before ++ [.request (.build setup)])) after := by
      rw [← run_append, List.append_assoc]
      exact congrArg (run E.recorded start) hinputs
    have hfailed : (run E.recorded start (before ++ [.request (.build setup)])).hosted = none := by
      have hserves := serving_of_run (hsplit ▸ hl)
      rw [run_append] at hserves ⊢
      exact hosted_of_failed hserves hfails
    have hgone : b.hosted = none := by
      rw [hsplit]
      exact hosted_none_run hfailed hnone
    exact target_of_not_hosts fun _ _ hc => hc.2 hgone
  · have hle : number ≤ b.number := by
      rw [hgranted] at hmem
      obtain ⟨n, hn, rfl⟩ := List.mem_map.1 hmem
      rw [hpaired.number_eq]
      have := (List.mem_range'_1.1 hn).2
      exact Int.ofNat_le.2 (by omega)
    refine target_of_not_hosts fun number' hnumber => ?_
    obtain rfl := Option.some.inj (hr.symm.trans hnumber)
    exact not_hosts_run E.recorded hle hhosts later

/-- An engine that prints a line whenever it is called, and is not built with options. -/
def choosy : Engine Unit (List String) :=
  { scribe with build := fun setup f => (if setup.options.isEmpty then .ok ["built"] else .error (.other "options"), f) }

/-- An engine is replaced by one that cannot be built, and then by another: the first number is served no more, and
the second names the other engine. -/
theorem requests_reach_named_choosy :
    let first : List Input := [.request (.build {}), .request (.call 1 .getSr []), .request (.build { options := ["-x"] })]
    let inputs : List Input := first ++ [.request (.call 1 .getSr []), .request (.build {})]
    let start : Bench (Unit × Nat) (Recorded (List String)) := { factory := ((), 0) }
    let gone := run choosy.recorded start first
    let b := run choosy.recorded start inputs
    granted choosy.recorded start inputs = [1, 2] ∧
    (∀ r, gone.target choosy.recorded r = none) ∧
    (∀ later op args, (run choosy.recorded gone later).target choosy.recorded (.call 1 op args) = none) ∧
    (∃ e, b.target choosy.recorded (.call 2 .getSr []) = some e ∧ e.serial = 2 ∧
      Created choosy.recorded start inputs 2 e) := by
  intro first inputs start gone b
  obtain ⟨-, hgranted, hreached, -, -, -⟩ := requests_reach_named choosy () {} inputs
  obtain ⟨-, hearlier, -, -, hfailed, hstale⟩ := requests_reach_named choosy () {} first
  have hsome : b.target choosy.recorded (.call 2 .getSr []) ≠ none := by decide
  obtain ⟨e, he⟩ := Option.ne_none_iff_exists'.1 hsome
  obtain ⟨hnumber, hcreated⟩ := hreached _ e rfl he
  have hserial : (2 : Int) = e.serial := Option.some.inj hnumber
  refine ⟨hgranted, ?_, fun later op args => ?_, e, he, Int.ofNat.inj hserial.symm, hserial ▸ hcreated⟩
  · exact hfailed [.request (.build {}), .request (.call 1 .getSr [])] { options := ["-x"] } [] rfl rfl rfl rfl
  · refine hstale 1 ?_ (fun h => absurd h.2 (by decide)) later _ rfl
    rw [hearlier]
    decide

end Bench
end SynthControl
