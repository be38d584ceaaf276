import SynthControl.Proofs.Worker

/-!
# What the worker keeps, if its engine does

What is true of the memory while a performance runs in it, or none, stays true under every move of the worker
if it does under the few things that it has the engine do, and under what it writes around them.

* `Engine.Keeps` — an engine under which something about memory and performance stays true;
* `Bench.step_keeps`, `Bench.handle_keeps` — **then it stays true under every step and every request** that
  the worker comes back from;
* `Engine.Steady` — an engine that never crashes, with which it comes back from all of them.
-/

namespace SynthControl

variable {φ σ : Type}

/-- Something about the memory and the performance that runs in it stays true under what the engine does and
what the worker writes around it. -/
structure Engine.Keeps (E : Engine φ σ) (I : Memory → Option Active → Prop) : Prop where
  begins {m : Memory} {io : Handle} {e e' : σ} {left : Io} :
    I m none → E.start (m.io io) e = (.ok 0, e', left) →
      I (Bench.memoryBegun m io left (E.mode e')) (some ⟨io, E.mode e'⟩)
  refuses {m : Memory} {io : Handle} {e e' : σ} {r : Attempt Int} {left : Io} :
    I m none → E.start (m.io io) e = (r, e', left) → r ≠ .ok 0 → r ≠ .crashed → I (m.setIo io left) none
  performs {m : Memory} {a : Active} {e e' : σ} {r : Attempt BlockEnd} {left : Io} :
    I m (some a) → E.perform (m.io a.io) e = (r, e', left) → r ≠ .crashed → I (m.setIo a.io left) (some a)
  /-- The boundary of a cycle is marked. -/
  marks {m : Memory} {a : Active} :
    I m (some a) → I (m.modifyRegion a.io.region fun r => r.raise .cycle) (some a)
  /-- The mark is taken back. -/
  unmarks {m : Memory} {a : Active} :
    I m (some a) → I (m.modifyRegion a.io.region fun r => r.set .cycle 0) (some a)
  ends {m : Memory} {a : Active} {e e' : σ} {r : Attempt Unit} {left : Io} :
    I m (some a) → E.cleanup (m.io a.io) e = (r, e', left) → r ≠ .crashed →
      I (Bench.memoryAfter m a.io left) none

namespace Bench

variable {E : Engine φ σ} {I : Memory → Option Active → Prop} {b : Bench φ σ}

theorem forward_keeps (h : I b.memory b.active?) : I (b.forward E).memory (b.forward E).active? := by
  rwa [forward_memory, forward_active?]

theorem respond_keeps {r : Attempt Value × Bench φ σ} (h : r.1 ≠ .crashed → I r.2.memory r.2.active?)
    (hl : (respond E r).2.life ≠ .crashed) : I (respond E r).2.memory (respond E r).2.active? := by
  obtain ⟨v, b⟩ := r
  cases v with
  | ok v => exact forward_keeps (h (by simp))
  | failed e => exact forward_keeps (h (by simp))
  | crashed => exact absurd rfl hl

section

variable (hE : E.Keeps I)
include hE

theorem finish_keeps (h : I b.memory b.active?) (hl : (b.finish E).life ≠ .crashed) :
    I (b.finish E).memory (b.finish E).active? := by
  cases ha : b.active? with
  | none => rwa [finish_of_idle E ha]
  | some a =>
    obtain ⟨e, hb⟩ := hosted_of_active? ha
    rcases hc : E.cleanup (b.memory.io a.io) e with ⟨r, e', left⟩
    by_cases hr : r = .crashed
    · subst hr
      rw [finish_crashed E hb hc] at hl
      exact absurd rfl hl
    · rw [finish_ended E hb hc hr]
      rw [ha] at h
      exact hE.ends h hc hr

theorem perform_keeps (h : I b.memory b.active?) (hl : (b.perform E).life ≠ .crashed) :
    I (b.perform E).memory (b.perform E).active? := by
  cases ha : b.active? with
  | none => rwa [perform_of_idle E ha]
  | some a =>
    obtain ⟨e, hb⟩ := hosted_of_active? ha
    rw [ha] at h
    rcases hp : E.perform (b.memory.io a.io) e with ⟨r, e', left⟩
    by_cases hr : r = .crashed
    · subst hr
      rw [perform_crashed E hb hp] at hl
      exact absurd rfl hl
    · have hleft := hE.performs h hp hr
      by_cases hm : r = .ok .more
      · subst hm
        rw [perform_more E hb hp]
        show I (memoryBetween b.memory a left) (some a)
        rw [memoryBetween]
        split
        · exact hleft
        · exact hE.marks hleft
      · rw [perform_over E hb hp hr hm] at hl ⊢
        dsimp only at hl ⊢
        split at hl
        · next hx => exact absurd hx hl
        · next hx =>
          rw [if_neg hx]
          refine forward_keeps (finish_keeps hE ?_ hx)
          exact hleft

/-- **A step keeps what the engine keeps.** -/
theorem step_keeps (notified : Bool) (h : I b.memory b.active?)
    (hl : (b.step E notified).life ≠ .crashed) :
    I (b.step E notified).memory (b.step E notified).active? := by
  rw [step] at hl ⊢
  split at hl
  · exact h
  · exact h
  · exact finish_keeps hE h hl
  · rw [awaitCycle]
    split
    · exact h
    · next a ha =>
      split
      · show I _ b.active?
        rw [ha] at h ⊢
        exact hE.unmarks h
      · exact h
  · exact perform_keeps hE h hl

theorem start_keeps (number : Int) (io : Handle) (h : I b.memory b.active?)
    (hc : (b.start E number io).1 ≠ .crashed) :
    I (b.start E number io).2.memory (b.start E number io).2.active? := by
  rw [start] at hc ⊢
  split
  · exact h
  · next hbusy =>
    have hidle : b.active? = none := by simpa using hbusy
    rw [if_neg hbusy] at hc
    cases he : b.engine? number with
    | error err => exact h
    | ok e =>
      rw [hidle] at h
      rw [he] at hc
      simp only [onEngine_eq] at hc ⊢
      rcases hs : E.start (b.memory.io io) e with ⟨r, e', left⟩
      rw [hs] at hc
      cases r with
      | crashed => exact absurd rfl hc
      | failed err =>
        show I (b.memory.setIo io left) b.active?
        rw [hidle]
        exact hE.refuses h hs (by simp) (by simp)
      | ok status =>
        dsimp only
        split
        · next hstatus =>
          show I (b.memory.setIo io left) b.active?
          rw [hidle]
          exact hE.refuses h hs (by simpa using hstatus) (by simp)
        · next hstatus =>
          obtain rfl : status = 0 := by simpa using hstatus
          exact hE.begins h hs

/-- **A request keeps what the engine keeps.** -/
theorem handle_keeps (r : Request) (h : I b.memory b.active?) (hl : (b.handle E r).2.life ≠ .crashed) :
    I (b.handle E r).2.memory (b.handle E r).2.active? := by
  have hidle := (finish_move E b).2
  cases r with
  | build setup =>
    refine respond_keeps ?_ hl
    intro hc
    rw [build] at hc ⊢
    dsimp only at hc ⊢
    split at hc
    · exact absurd rfl hc
    · next hx =>
      rw [if_neg hx]
      have hf := finish_keeps hE h hx
      rw [hidle] at hf
      split <;> exact hf
  | start number io => exact respond_keeps (start_keeps hE number io h) hl
  | reset number =>
    refine respond_keeps ?_ hl
    intro hc
    unfold reset at hc ⊢
    dsimp only at hc ⊢
    split at hc
    · exact absurd rfl hc
    · next hx =>
      rw [if_neg hx]
      have hf := finish_keeps hE h hx
      split
      · exact hf
      · split <;> exact hf
  | call number op args =>
    refine respond_keeps ?_ hl
    intro _
    rw [call]
    split <;> exact h
  | shutdown =>
    rw [handle, leave] at hl ⊢
    dsimp only at hl ⊢
    split at hl
    · next hx => exact absurd hx hl
    · next hx =>
      rw [if_neg hx]
      exact finish_keeps hE h hx

end
end Bench

/-! ### An engine that never crashes -/

/-- Nothing that is done with the engine crashes. -/
structure Engine.Steady (E : Engine φ σ) : Prop where
  start (io : Io) (e : σ) : (E.start io e).1 ≠ .crashed
  perform (io : Io) (e : σ) : (E.perform io e).1 ≠ .crashed
  cleanup (io : Io) (e : σ) : (E.cleanup io e).1 ≠ .crashed
  reset (e : σ) : (E.reset e).1 ≠ .crashed
  call (op : Operation) (args : List Value) (e : σ) : (E.call op args e).1 ≠ .crashed

namespace Bench

variable {E : Engine φ σ} {b : Bench φ σ} (hE : E.Steady)
include hE

theorem finish_steady (hb : b.life ≠ .crashed) : (b.finish E).life ≠ .crashed := by
  cases ha : b.active? with
  | none => rwa [finish_of_idle E ha]
  | some a =>
    obtain ⟨e, he⟩ := hosted_of_active? ha
    rcases hc : E.cleanup (b.memory.io a.io) e with ⟨r, e', left⟩
    have hr : r ≠ .crashed := by simpa [hc] using hE.cleanup (b.memory.io a.io) e
    rwa [finish_ended E he hc hr]

theorem perform_steady (hb : b.life ≠ .crashed) : (b.perform E).life ≠ .crashed := by
  cases ha : b.active? with
  | none => rwa [perform_of_idle E ha]
  | some a =>
    obtain ⟨e, he⟩ := hosted_of_active? ha
    rcases hp : E.perform (b.memory.io a.io) e with ⟨r, e', left⟩
    have hr : r ≠ .crashed := by simpa [hp] using hE.perform (b.memory.io a.io) e
    by_cases hm : r = .ok .more
    · subst hm
      rwa [perform_more E he hp]
    · have hf : (({ b with
          hosted := some ⟨e', some a⟩, memory := b.memory.setIo a.io left } : Bench φ σ).finish E).life ≠ .crashed :=
        finish_steady hE hb
      rw [perform_over E he hp hr hm]
      dsimp only
      rwa [if_neg hf, forward_life]

theorem step_steady (notified : Bool) (hb : b.life ≠ .crashed) : (b.step E notified).life ≠ .crashed := by
  rw [step]
  split
  · exact hb
  · exact hb
  · exact finish_steady hE hb
  · rw [awaitCycle]
    split
    · exact hb
    · split <;> exact hb
  · exact perform_steady hE hb

omit hE in
theorem respond_steady {r : Attempt Value × Bench φ σ} (hr : r.1 ≠ .crashed) (hb : r.2.life ≠ .crashed) :
    (respond E r).2.life ≠ .crashed := by
  obtain ⟨v, b⟩ := r
  cases v with
  | ok v => rwa [respond, forward_life]
  | failed e => rwa [respond, forward_life]
  | crashed => exact absurd rfl hr

theorem start_steady (number : Int) (io : Handle) (hb : b.life ≠ .crashed) :
    (b.start E number io).1 ≠ .crashed ∧ (b.start E number io).2.life ≠ .crashed := by
  have hs := start_cases E number io b
  generalize b.start E number io = r at hs ⊢
  cases hs with
  | unasked v _ hc => exact ⟨hc, hb⟩
  | crashed e e' left hs _ => exact absurd (congrArg Prod.fst hs) (hE.start _ _)
  | refused r e e' left v _ _ _ _ hc => exact ⟨hc, hb⟩
  | begun e e' left m _ _ _ => exact ⟨by simp, hb⟩

theorem reset_steady (number : Int) (hb : b.life ≠ .crashed) :
    (b.reset E number).1 ≠ .crashed ∧ (b.reset E number).2.life ≠ .crashed := by
  have hf := finish_steady hE hb
  unfold reset
  dsimp only
  rw [if_neg hf]
  split
  · exact ⟨by simp, hf⟩
  · next e _ =>
    rcases hr : E.reset e with ⟨r, e'⟩
    have hc : r ≠ .crashed := by simpa [hr] using hE.reset e
    cases r with
    | ok status => exact ⟨by simp, hf⟩
    | failed err => exact ⟨by simp, hf⟩
    | crashed => exact absurd rfl hc

theorem handle_steady (r : Request) (hb : b.life ≠ .crashed) : (b.handle E r).2.life ≠ .crashed := by
  have hf := finish_steady hE hb
  cases r with
  | build setup =>
    refine respond_steady ?_ ?_
    all_goals
      rw [build]
      dsimp only
      rw [if_neg hf]
      split
    · simp
    · simp
    · exact hf
    · exact hf
  | start number io => exact respond_steady (start_steady hE number io hb).1 (start_steady hE number io hb).2
  | reset number => exact respond_steady (reset_steady hE number hb).1 (reset_steady hE number hb).2
  | call number op args =>
    refine respond_steady ?_ ?_
    all_goals
      rw [call]
      split
    · simp
    · exact hE.call op args _
    · exact hb
    · exact hb
  | shutdown =>
    rw [handle, leave]
    dsimp only
    rw [if_neg hf]
    simp

end Bench
end SynthControl
