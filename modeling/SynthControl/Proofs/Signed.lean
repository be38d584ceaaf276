import SynthControl.Proofs.Mirroring

/-!
# Engines that sign what they do

Which engine did what, and when, cannot be seen in the reports of a worker.  An engine that signs prints a
stamp for every call it gets, with its serial number, and the stamps travel with its lines.  A worker does
not notice the difference, so what the stamps tell about a signing engine is true of the engine itself.

* `Deed`, `Stamp`, `Mark` — a call of an engine; with the serial number of the engine that got it; what a
  signing engine prints;
* `Engine.signed` — the engine that signs, with any handwriting;
* `signed_mirrors` — **an engine that signs mirrors the one that it is**;
* `Alike` — a worker with a signing engine and one without that are in the same state;
* `run_alike` — **a run with signatures is a run without**.
-/

namespace SynthControl

/-- A call of an engine. -/
inductive Deed where
  /-- A start, and whether it came to zero. -/
  | start (accepted : Bool)
  | perform
  | cleanup
  | reset
  | call (op : Operation)
  deriving DecidableEq, Repr

/-- A call with the serial number of the engine that got it. -/
structure Stamp where
  serial : Nat
  deed : Deed
  deriving DecidableEq, Repr

/-- What an engine that signs prints. -/
inductive Mark where
  | stamp (s : Stamp)
  | line (text : String)
  deriving DecidableEq, Repr

/-- The state of an engine that signs. -/
structure Signed (σ : Type) where
  engine : σ
  /-- Its serial number; every engine of a factory has its own. -/
  serial : Nat
  /-- The stamps that were not printed yet. -/
  unsent : List Stamp := []

/-- The engine after a call. -/
def Signed.stamp {σ : Type} (e : Signed σ) (s : σ) (d : Deed) : Signed σ :=
  { e with engine := s, unsent := e.unsent ++ [⟨e.serial, d⟩] }

/-- What the engine prints next, when it has some lines of its own. -/
def Signed.marks {σ : Type} (e : Signed σ) (lines : List String) : List Mark :=
  e.unsent.map .stamp ++ lines.map .line

def Attempt.accepts : Attempt Int → Bool
  | .ok status => status == 0
  | _ => false

/-- The engine that signs every call, in a handwriting. -/
def Engine.signed {φ σ : Type} (E : Engine φ σ) (write : Mark → String) :
    Engine (φ × Nat) (Signed σ) where
  build setup f :=
    match E.build setup f.1 with
    | (.ok s, f') => (.ok ⟨s, f.2 + 1, []⟩, f', f.2 + 1)
    | (.error e, f') => (.error e, f', f.2)
  start io e :=
    let (r, s, io) := E.start io e.engine
    (r, e.stamp s (.start r.accepts), io)
  mode e := E.mode e.engine
  perform io e :=
    let (r, s, io) := E.perform io e.engine
    (r, e.stamp s .perform, io)
  cleanup io e :=
    let (r, s, io) := E.cleanup io e.engine
    (r, e.stamp s .cleanup, io)
  reset e :=
    let (r, s) := E.reset e.engine
    (r, e.stamp s .reset)
  call op args e :=
    let (r, s) := E.call op args e.engine
    (r, e.stamp s (.call op))
  drain e :=
    let (lines, s) := E.drain e.engine
    ((e.marks lines).map write, { e with engine := s, unsent := [] })

/-- **An engine that signs mirrors the one that it is**, up to what is printed. -/
theorem Engine.signed_mirrors {φ σ : Type} (E : Engine φ σ) (w : Mark → String) :
    (E.signed w).Mirrors E Prod.fst Signed.engine fun es' es => phases es' = phases es where
  build setup p := by
    rcases h : E.build setup p.1 with ⟨r, f⟩
    cases r <;> simp only [Engine.signed, h] <;> rfl
  start _ _ := rfl
  mode _ := rfl
  perform _ _ := rfl
  cleanup _ _ := rfl
  reset _ := rfl
  call _ _ _ := rfl
  drained _ := rfl
  state h p := by rw [phases_append, phases_append, h]
  lines h s := by rw [phases_append, phases_append, phases_map_message, phases_map_message, h]

namespace Bench

variable {φ σ : Type} (E : Engine φ σ) (w : Mark → String)

/-! ### A worker does not notice -/

/-- A hosted engine without its stamps. -/
def bare (h : Hosted (Signed σ)) : Hosted σ := ⟨h.engine.engine, h.active⟩

/-- A worker with a signing engine and one without are in the same state, up to what was printed. -/
structure Alike (b : Bench (φ × Nat) (Signed σ)) (c : Bench φ σ) : Prop where
  factory : b.factory.1 = c.factory
  hosted : b.hosted.map bare = c.hosted
  number : b.number = c.number
  memory : b.memory = c.memory
  life : b.life = c.life
  phases : phases b.reports = phases c.reports

variable {E w} {b : Bench (φ × Nat) (Signed σ)} {c : Bench φ σ}

theorem alike_iff :
    Alike b c ↔ Mirrored Prod.fst Signed.engine (fun es' es => phases es' = phases es) b c :=
  ⟨fun h => ⟨h.factory, h.hosted, h.number, h.memory, h.life, h.phases⟩,
    fun h => ⟨h.factory, h.hosted, h.number, h.memory, h.life, h.reports⟩⟩

theorem Alike.active? (h : Alike b c) : b.active? = c.active? := (alike_iff.1 h).active?

/-- **A run with signatures is a run without.** -/
theorem run_alike (inputs : List Input) (h : Alike b c) :
    Alike (run (E.signed w) b inputs) (run E c inputs) :=
  alike_iff.2 (run_mirrored (E.signed_mirrors w) inputs (alike_iff.1 h))

end Bench
end SynthControl
