/-!
# Runs of operations

What a run of operations puts out, whatever they act on, and what it leaves.  Two things that answer every
operation alike answer every run alike.

* `outputs`, `final` — what a run puts out, and what it leaves;
* `outputs_eq_of_simulation` — **a relation that every operation keeps, with equal answers, is kept by every
  run**.
-/

namespace SynthControl

variable {ι O S T : Type}

/-- What operations put out, one after another. -/
def outputs (act : ι → S → O × S) : List ι → S → List O
  | [], _ => []
  | i :: is, s => (act i s).1 :: outputs act is (act i s).2

/-- What operations leave. -/
def final (act : ι → S → O × S) : List ι → S → S
  | [], s => s
  | i :: is, s => final act is (act i s).2

theorem final_append (act : ι → S → O × S) (is js : List ι) (s : S) :
    final act (is ++ js) s = final act js (final act is s) := by
  induction is generalizing s with
  | nil => rfl
  | cons i is ih => exact ih _

/-- What holds at first and is kept by every operation holds in the end. -/
theorem final_invariant {act : ι → S → O × S} {P : S → Prop}
    (hstep : ∀ i s, P s → P (act i s).2) {s : S} (h : P s) (is : List ι) : P (final act is s) := by
  induction is generalizing s with
  | nil => exact h
  | cons i is ih => exact ih (hstep i s h)

/-- Two things that answer every operation alike answer every run alike. -/
theorem outputs_eq_of_simulation {f : ι → S → O × S} {g : ι → T → O × T} {R : S → T → Prop}
    (hstep : ∀ i s t, R s t → (f i s).1 = (g i t).1 ∧ R (f i s).2 (g i t).2) {s : S} {t : T}
    (h : R s t) (is : List ι) :
    outputs f is s = outputs g is t ∧ R (final f is s) (final g is t) := by
  induction is generalizing s t with
  | nil => exact ⟨rfl, h⟩
  | cons i is ih =>
    obtain ⟨hout, hkept⟩ := hstep i s t h
    obtain ⟨houts, hfinal⟩ := ih hkept
    refine ⟨?_, hfinal⟩
    show _ :: _ = _ :: _
    rw [hout, houts]

end SynthControl
