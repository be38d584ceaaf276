import SynthControl.Proofs.Worker
import SynthControl.Proofs.Mirroring
import Mathlib.Data.List.Induction
import Mathlib.Logic.Relation

/-!
# What becomes of the hosted engine

Whatever the worker is given, it builds an engine, begins a performance of the one that it hosts, looks after it, or
ends its performance.  This is said once for every input; what holds of the engine follows from what holds of each
thing that is done with it.

* `Engine.Tends` — what is done with an engine while its performance goes on;
* `Engine.Handles` — all that is done with one;
* `Bench.Fed`, `Bench.feed_cases` — **the ways in which an input can leave the hosted engine**;
* `Bench.run_handled` — what everything that is done with an engine keeps holds of the hosted one after every run;
* `Bench.Began`, `Bench.began_of_active` — **what is performed was begun by a request of the run**, and since then
  the engine was only looked after.
-/

namespace SynthControl

open Relation

variable {φ σ : Type}

/-! ### What is done with an engine -/

/-- An engine is looked after. -/
inductive Engine.Tends (E : Engine φ σ) : σ → σ → Prop where
  | performs {io left : Io} {e e' : σ} {r : Attempt BlockEnd} (h : E.perform io e = (r, e', left)) : Tends E e e'
  | calls (op : Operation) (args : List Value) (e : σ) : Tends E e (E.call op args e).2
  | drains (e : σ) : Tends E e (E.drain e).2

/-- Something is done with an engine. -/
inductive Engine.Handles (E : Engine φ σ) : σ → σ → Prop where
  | tends {e e' : σ} (h : E.Tends e e') : Handles E e e'
  | starts {io left : Io} {e e' : σ} {r : Attempt Int} (h : E.start io e = (r, e', left)) : Handles E e e'
  | cleans {io left : Io} {e e' : σ} {r : Attempt Unit} (h : E.cleanup io e = (r, e', left)) : Handles E e e'
  | resets (e : σ) : Handles E e (E.reset e).2

/-- What is kept by everything that is done is kept by any number of things. -/
theorem kept_of_reflTransGen {R : σ → σ → Prop} {P : σ → Prop} (hP : ∀ e e', R e e' → P e → P e') {e e' : σ}
    (h : ReflTransGen R e e') (he : P e) : P e' := by
  induction h with
  | refl => exact he
  | tail _ hstep ih => exact hP _ _ hstep ih

namespace Bench

/-! ### One input -/

/-- What an input can leave of the hosted engine. -/
inductive Fed (E : Engine φ σ) (b : Bench φ σ) (i : Input) : Option (Hosted σ) → Prop where
  /-- There is none, or it is lost. -/
  | gone : Fed E b i none
  /-- It is looked after; its performance goes on, if there is one. -/
  | stays {e e' : σ} {o : Option Active} (hb : b.hosted = some ⟨e, o⟩) (h : ReflTransGen E.Tends e e') :
      Fed E b i (some ⟨e', o⟩)
  /-- A performance is begun, as the input asks. -/
  | begins {number : Int} {io : Handle} {e e' e'' : σ} {left : Io} (hi : i = .request (.start number io))
      (hl : b.life = .serving) (hb : b.hosted = some ⟨e, none⟩)
      (ha : (b.handle E (.start number io)).1 = some (.ok (.int 0)))
      (hs : E.start (b.memory.io io) e = (.ok 0, e', left)) (h : ReflTransGen E.Tends e' e'') :
      Fed E b i (some ⟨e'', some ⟨io, E.mode e'⟩⟩)
  /-- Nothing is performed any more. -/
  | rests {k : Hosted σ} {e' : σ} (hb : b.hosted = some k) (h : ReflTransGen E.Handles k.engine e') :
      Fed E b i (some ⟨e', none⟩)
  /-- Another engine is built. -/
  | builds {setup : Setup} {f f' : φ} {e e' : σ} (hi : i = .request (.build setup))
      (he : E.build setup f = (.ok e, f')) (h : ReflTransGen E.Tends e e') : Fed E b i (some ⟨e', none⟩)

section

variable {E : Engine φ σ} {b c : Bench φ σ} {i : Input}

theorem Fed.self : Fed E b i b.hosted := by
  cases hb : b.hosted with
  | none => exact .gone
  | some k => exact .stays hb .refl

/-- The lines of the engine may be taken afterwards. -/
theorem Fed.forward (h : Fed E b i c.hosted) : Fed E b i (c.forward E).hosted := by
  rw [Bench.forward]
  cases hc : c.hosted with
  | none => rwa [hc] at h ⊢
  | some k =>
    rw [hc] at h
    show Fed E b i (some ⟨(E.drain k.engine).2, k.active⟩)
    cases h with
    | stays hb h => exact .stays hb (h.tail (.drains _))
    | begins hi hl hb ha hs h => exact .begins hi hl hb ha hs (h.tail (.drains _))
    | rests hb h => exact .rests hb (h.tail (.tends (.drains _)))
    | builds hi he h => exact .builds hi he (h.tail (.drains _))

theorem Fed.respond {r : Attempt Value × Bench φ σ} (h : Fed E b i r.2.hosted) :
    Fed E b i (respond E r).2.hosted := by
  obtain ⟨v, b⟩ := r
  cases v with
  | ok v => exact Fed.forward h
  | failed e => exact Fed.forward h
  | crashed => exact h

/-- After the end of a performance nothing is performed. -/
theorem finish_hosted {e : σ} {o : Option Active} (h : (b.finish E).hosted = some ⟨e, o⟩) :
    o = none ∧ ∃ k, b.hosted = some k ∧ ReflTransGen E.Handles k.engine e := by
  cases ha : b.active? with
  | none =>
    rw [finish_of_idle E ha] at h
    exact ⟨(active?_of_hosted h).symm.trans ha, _, h, .refl⟩
  | some a =>
    obtain ⟨e₀, hb⟩ := hosted_of_active? ha
    rcases hc : E.cleanup (b.memory.io a.io) e₀ with ⟨r, e', left⟩
    by_cases hr : r = .crashed
    · subst hr
      rw [finish_crashed E hb hc] at h
      cases h
    · rw [finish_ended E hb hc hr] at h
      cases h
      exact ⟨rfl, _, hb, (ReflTransGen.single (.cleans hc)).tail (.tends (.drains e'))⟩

theorem finish_fed : Fed E b i (b.finish E).hosted := by
  cases hk : (b.finish E).hosted with
  | none => exact .gone
  | some k =>
    obtain ⟨e, o⟩ := k
    obtain ⟨rfl, k, hb, h⟩ := finish_hosted hk
    exact .rests hb h

theorem perform_fed : Fed E b i (b.perform E).hosted := by
  cases ha : b.active? with
  | none =>
    rw [perform_of_idle E ha]
    exact .self
  | some a =>
    obtain ⟨e, hb⟩ := hosted_of_active? ha
    rcases hp : E.perform (b.memory.io a.io) e with ⟨r, e', left⟩
    by_cases hr : r = .crashed
    · subst hr
      rw [perform_crashed E hb hp]
      exact .gone
    · by_cases hm : r = .ok .more
      · subst hm
        rw [perform_more E hb hp]
        exact .stays hb ((ReflTransGen.single (.performs hp)).tail (.drains e'))
      · -- the performance is over: it is ended, and then the lines are taken once more
        rw [perform_over E hb hp hr hm]
        have hfinish : Fed E b i (({ b with
            hosted := some ⟨e', some a⟩, memory := b.memory.setIo a.io left } : Bench φ σ).finish E).hosted := by
          cases hk : (({ b with
              hosted := some ⟨e', some a⟩, memory := b.memory.setIo a.io left } : Bench φ σ).finish E).hosted with
          | none => exact .gone
          | some k =>
            obtain ⟨e'', o⟩ := k
            obtain ⟨rfl, k, hk, h⟩ := finish_hosted hk
            cases hk
            exact .rests hb (.head (.tends (.performs hp)) h)
        dsimp only
        split
        · exact hfinish
        · exact hfinish.forward

theorem step_fed (notified : Bool) : Fed E b i (b.step E notified).hosted := by
  rw [step]
  split
  · exact .self
  · exact .self
  · exact finish_fed
  · rw [awaitCycle]
    split
    · exact .self
    · split <;> exact .self
  · exact perform_fed

theorem start_fed (hl : b.life = .serving) (number : Int) (io : Handle) :
    Fed E b (.request (.start number io)) (b.handle E (.start number io)).2.hosted := by
  have hanswer := respond_fst_iff E (b.start E number io) (.int 0)
  have h := start_cases E number io b
  rw [handle]
  change (b.handle E (.start number io)).1 = _ ↔ _ at hanswer
  generalize b.start E number io = r at h hanswer ⊢
  cases h with
  | unasked v _ _ => exact .respond .self
  | crashed e e' left _ _ => exact .respond .self
  | refused r e e' left v hb hs _ _ _ => exact .respond (.rests hb (.single (.starts hs)))
  | begun e e' left m hb hs _ => exact .respond (.begins rfl hl hb (hanswer.2 rfl) hs .refl)

/-- **An input leaves the hosted engine in one of these ways.** -/
theorem feed_cases (E : Engine φ σ) (b : Bench φ σ) (i : Input) : Fed E b i (feed E b i).hosted := by
  cases i with
  | others m => exact .self
  | idle notified =>
    rw [feed]
    split
    · exact step_fed notified
    · exact .self
  | request r =>
    rw [feed]
    split
    · next hl =>
      cases r with
      | start number io => exact start_fed hl number io
      | build setup =>
        refine .respond ?_
        rw [build]
        dsimp only
        split
        · exact finish_fed
        · rcases hbuild : E.build setup (b.finish E).factory with ⟨r, f⟩
          cases r with
          | ok e => exact .builds rfl hbuild .refl
          | error err => exact .gone
      | reset number =>
        refine .respond ?_
        rw [Bench.reset]
        split
        · exact finish_fed
        · cases he : (b.finish E).engine? number with
          | error err => exact finish_fed
          | ok e =>
            obtain ⟨-, o, hk⟩ := hosted_of_engine? he
            obtain ⟨rfl, k, hb, h⟩ := finish_hosted hk
            have hreset : Fed E b (.request (.reset number)) (some ⟨(E.reset e).2, none⟩) :=
              .rests hb (h.tail (.resets e))
            have hidle : (b.finish E).active? = none := active?_of_hosted hk
            dsimp only
            rcases hr : E.reset e with ⟨r, e'⟩
            rw [hr] at hreset
            cases r with
            | ok status => rwa [setEngine_hosted, hidle]
            | failed err => rwa [setEngine_hosted, hidle]
            | crashed => exact finish_fed
      | call number op args =>
        refine .respond ?_
        rw [call]
        cases he : b.engine? number with
        | error err => exact .self
        | ok e =>
          obtain ⟨-, o, hb⟩ := hosted_of_engine? he
          dsimp only
          rw [setEngine_hosted, active?_of_hosted hb]
          exact .stays hb (.single (.calls op args e))
      | shutdown =>
        rw [handle, leave]
        dsimp only
        split <;> exact finish_fed
    · exact .self

end

/-! ### Runs -/

theorem run_append (E : Engine φ σ) (b : Bench φ σ) (is js : List Input) :
    run E b (is ++ js) = run E (run E b is) js := List.foldl_append

/-- **What everything that is done with an engine keeps, and new engines have, the hosted one has.** -/
theorem run_handled {E : Engine φ σ} {P : σ → Prop} (hP : ∀ e e', E.Handles e e' → P e → P e') {b : Bench φ σ}
    (hb : b.hosted = none) (inputs : List Input)
    (hbuild : ∀ setup f f' e, Input.request (.build setup) ∈ inputs → E.build setup f = (.ok e, f') → P e) :
    ∀ k, (run E b inputs).hosted = some k → P k.engine := by
  have htends : ∀ {e e'}, ReflTransGen E.Tends e e' → P e → P e' :=
    fun h => kept_of_reflTransGen (fun e e' ht => hP e e' (.tends ht)) h
  induction inputs using List.reverseRecOn with
  | nil =>
    intro k hk
    rw [show run E b [] = b from rfl, hb] at hk
    cases hk
  | append_singleton is i ih =>
    intro k hk
    have hbefore := ih fun setup f f' e hm => hbuild setup f f' e (List.mem_append_left _ hm)
    rw [run_append] at hk
    have hfed := feed_cases E (run E b is) i
    rw [show (feed E (run E b is) i).hosted = some k from hk] at hfed
    cases hfed with
    | stays hb h => exact htends h (hbefore _ hb)
    | begins _ _ hb _ hs h => exact htends h (hP _ _ (.starts hs) (hbefore _ hb))
    | rests hb h => exact kept_of_reflTransGen hP h (hbefore _ hb)
    | builds hi he h =>
      refine htends h (hbuild _ _ _ _ ?_ he)
      rw [hi]
      simp

/-- A performance was begun after `pre`, of an engine in the state `e`, and has gone on since. -/
structure Began (E : Engine φ σ) (b : Bench φ σ) (pre : List Input) (number : Int) (post : List Input) (e : σ)
    (a : Active) : Prop where
  serving : (run E b pre).life = .serving
  hosted : (run E b pre).hosted = some ⟨e, none⟩
  accepted : ((run E b pre).handle E (.start number a.io)).1 = some (.ok (.int 0))
  goesOn : ∀ mid, mid <+: post → (run E b (pre ++ .request (.start number a.io) :: mid)).active? = some a

/-- **What is performed was begun by a request of the run**, and since then its engine was only looked after. -/
theorem began_of_active (E : Engine φ σ) {b : Bench φ σ} (hb : b.hosted = none) {inputs : List Input} {e : σ}
    {a : Active} (h : (run E b inputs).hosted = some ⟨e, some a⟩) :
    ∃ pre number post e₁ e₂ left, inputs = pre ++ .request (.start number a.io) :: post ∧
      Began E b pre number post e₁ a ∧ E.start ((run E b pre).memory.io a.io) e₁ = (.ok 0, e₂, left) ∧
      a.mode = E.mode e₂ ∧ ReflTransGen E.Tends e₂ e := by
  induction inputs using List.reverseRecOn generalizing e with
  | nil =>
    rw [show run E b [] = b from rfl, hb] at h
    cases h
  | append_singleton is i ih =>
    have hactive : (run E b (is ++ [i])).active? = some a := active?_of_hosted h
    rw [run_append] at h
    have hfed := feed_cases E (run E b is) i
    rw [show (feed E (run E b is) i).hosted = some ⟨e, some a⟩ from h] at hfed
    cases hfed with
    | stays hk ht =>
      obtain ⟨pre, number, post, e₁, e₂, left, rfl, hbegan, hs, hmode, hsince⟩ := ih hk
      refine ⟨pre, number, post ++ [i], e₁, e₂, left, by simp, ⟨hbegan.serving, hbegan.hosted, hbegan.accepted, ?_⟩,
        hs, hmode, hsince.trans ht⟩
      intro mid hmid
      rcases List.prefix_concat_iff.1 hmid with rfl | hmid
      · simpa using hactive
      · exact hbegan.goesOn mid hmid
    | @begins number io e₁ e₂ _ left hi hl hk ha hs ht =>
      subst hi
      refine ⟨is, number, [], e₁, e₂, left, rfl, ⟨hl, hk, ha, ?_⟩, hs, rfl, ht⟩
      intro mid hmid
      obtain rfl := List.prefix_nil.1 hmid
      exact hactive

end Bench
end SynthControl
