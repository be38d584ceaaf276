import SynthControl.Proofs.Chronicle

/-!
# Requests for an engine that is not hosted

A request names the engine that it is for by a number.  The number may be that of an engine that was replaced, or
of one that could not be built.  Such a request is refused, and the question is what it does besides.

* `Request.number?`, `Bench.Misses` — the engine that a request is for; it is not the one that is hosted;
* `Bench.Refused` — the ways in which such a request is refused;
* `Bench.Untouched` — a worker whose engine, performance, memory and phases are as they were;
* `handle_of_misses` — a request that misses is refused, and the worker only reports what its engine has printed,
  as it does after every request;
* `handle_of_interrupts` — unless it is a reset while a performance runs, which ends the performance first;
* `refused_iff` — **a request that misses is refused and touches nothing, exactly if it is no reset while a
  performance runs**.
-/

namespace SynthControl

/-- The call that a happening was, if it was one. -/
def Happening.deed? : Happening → Option Deed
  | called d => some d
  | gave _ => none

/-- The calls that an engine has got since it was built. -/
def Recorded.deeds {σ : Type} (e : Recorded σ) : List Deed := e.record.filterMap Happening.deed?

theorem Recorded.deeds_called {σ : Type} (e : Recorded σ) (s : σ) (d : Deed) :
    (e.enter s (.called d)).deeds = e.deeds ++ [d] := by
  rw [deeds, enter, List.filterMap_append]
  rfl

theorem Recorded.deeds_gave {σ : Type} (e : Recorded σ) (s : σ) (lines : List String) :
    (e.enter s (.gave lines)).deeds = e.deeds := by
  rw [deeds, enter, List.filterMap_append]
  exact List.append_nil _

/-- The number of the engine that a request is for. -/
def Request.number? : Request → Option Int
  | start number _ | reset number | call number _ _ => some number
  | build _ | shutdown => none

namespace Bench

variable {φ σ : Type}

/-- The engine with this number is hosted. -/
def Hosts (b : Bench φ σ) (number : Int) : Prop := number = b.number ∧ b.hosted ≠ none

/-- The request is for an engine that is not hosted. -/
def Misses (b : Bench φ σ) (r : Request) : Prop := ∃ number, r.number? = some number ∧ ¬b.Hosts number

/-- The request is a reset, and a performance runs. -/
def Interrupts (b : Bench φ σ) (r : Request) : Prop := (∃ number, r = .reset number) ∧ b.active? ≠ none

/-- What is said to a request for an engine that is not hosted. -/
def objection (b : Bench φ σ) (number : Int) : EngineError :=
  if number = b.number then .instanceGone number else .unknownInstance number

/-- A request is refused: by an error that names the engine it was for, or, if it would begin a performance while
another one runs, by status minus one. -/
inductive Refused (b : Bench φ σ) : Request → Option Reply → Prop where
  | busy {number : Int} {io : Handle} (ha : b.active? ≠ none) :
      Refused b (.start number io) (some (.ok (.int (-1))))
  | error {r : Request} {number : Int} (hr : r.number? = some number) :
      Refused b r (some (.error (b.objection number)))

theorem engine?_of_not_hosts {b : Bench φ σ} {number : Int} (h : ¬b.Hosts number) :
    b.engine? number = .error (b.objection number) := by
  rw [engine?, objection]
  split
  · next hn =>
    have hb : b.hosted = none := by
      by_contra hb
      exact h ⟨hn, hb⟩
    rw [hb]
  · rfl

/-! ### What the worker does -/

/-- **A request that misses, and does not interrupt, is refused**; the worker reports what its engine has printed,
as after every request, and that is all. -/
theorem handle_of_misses (E : Engine φ σ) {b : Bench φ σ} {r : Request} (hl : b.life ≠ .crashed)
    (hr : b.Misses r) (hi : ¬b.Interrupts r) : Refused b r (b.handle E r).1 ∧ (b.handle E r).2 = b.forward E := by
  obtain ⟨number, hnumber, hhosts⟩ := hr
  have he := engine?_of_not_hosts hhosts
  cases r with
  | build setup => cases hnumber
  | shutdown => cases hnumber
  | start n io =>
    obtain rfl : n = number := Option.some.inj hnumber
    rw [handle, start]
    split
    · next ha => exact ⟨.busy (Option.isSome_iff_ne_none.1 ha), rfl⟩
    · rw [he]
      exact ⟨.error rfl, rfl⟩
  | reset n =>
    obtain rfl : n = number := Option.some.inj hnumber
    have hidle : b.active? = none := by
      by_contra ha
      exact hi ⟨⟨n, rfl⟩, ha⟩
    rw [handle, reset, finish_of_idle E hidle, if_neg hl, he]
    exact ⟨.error rfl, rfl⟩
  | call n op args =>
    obtain rfl : n = number := Option.some.inj hnumber
    rw [handle, call, he]
    exact ⟨.error rfl, rfl⟩

/-- The end of a performance leaves the number of the engine. -/
theorem finish_number (E : Engine φ σ) (b : Bench φ σ) : (b.finish E).number = b.number := by
  cases ha : b.active? with
  | none => rw [finish_of_idle E ha]
  | some a =>
    obtain ⟨e, hb⟩ := hosted_of_active? ha
    rcases hc : E.cleanup (b.memory.io a.io) e with ⟨r, e', io⟩
    by_cases hr : r = .crashed
    · subst hr
      rw [finish_crashed E hb hc]
    · rw [finish_ended E hb hc hr]

/-- A reset ends the performance before anything is said about its number; unless the worker crashes over that, the
reset is refused then. -/
theorem handle_of_interrupts (E : Engine φ σ) {b : Bench φ σ} {r : Request} (hr : b.Misses r)
    (hi : b.Interrupts r) (hl : (b.finish E).life ≠ .crashed) :
    Refused b r (b.handle E r).1 ∧ (b.handle E r).2 = (b.finish E).forward E := by
  obtain ⟨⟨number, rfl⟩, ha⟩ := hi
  obtain ⟨n, hn, hhosts⟩ := hr
  obtain rfl : number = n := Option.some.inj hn
  obtain ⟨a, ha⟩ := Option.ne_none_iff_exists'.1 ha
  obtain ⟨e, hb⟩ := hosted_of_active? ha
  have hnumber : number ≠ b.number := fun h => hhosts ⟨h, by simp [hb]⟩
  have he : (b.finish E).engine? number = .error (b.objection number) := by
    rw [engine?, objection, finish_number, if_neg hnumber, if_neg hnumber]
  rw [handle, reset, if_neg hl, he]
  exact ⟨.error rfl, rfl⟩

/-! ### What is touched -/

/-- The calls that the hosted engine has got. -/
def deeds (b : Bench (φ × Nat) (Recorded σ)) : Option (List Deed) := b.hosted.map fun h => h.engine.deeds

/-- The engine was not called, the performance and the memory are as they were, and no phase was reported. -/
structure Untouched (b b' : Bench (φ × Nat) (Recorded σ)) : Prop where
  factory : b'.factory = b.factory
  number : b'.number = b.number
  life : b'.life = b.life
  memory : b'.memory = b.memory
  active : b'.active? = b.active?
  phases : phases b'.reports = phases b.reports
  deeds : b'.deeds = b.deeds

/-- A performance was cut off: its engine was called to clean up, its region tells that nothing runs, and its end was
reported. -/
structure CutOff (a : Active) (b b' : Bench (φ × Nat) (Recorded σ)) : Prop where
  active : b'.active? = none
  deeds : b'.deeds = b.deeds.map (· ++ [.cleanup])
  memory : ∃ left, b'.memory = memoryAfter b.memory a.io left
  phases : phases b'.reports = phases b.reports ++ [a.mode.ended]

/-- To report what the engine has printed touches nothing. -/
theorem untouched_forward (E : Engine φ σ) (b : Bench (φ × Nat) (Recorded σ)) :
    Untouched b (b.forward E.recorded) := by
  refine ⟨?_, ?_, forward_life _ b, forward_memory _ b, forward_active? _ b, phases_forward _ b, ?_⟩
  all_goals
    rw [forward]
    split
  · rfl
  · rfl
  · rfl
  · rfl
  · rfl
  · next h hb =>
    simp only [Bench.deeds, hb, Option.map_some]
    exact congrArg some (h.engine.deeds_gave _ _)

theorem CutOff.untouched {a : Active} {b b' c : Bench (φ × Nat) (Recorded σ)} (h : CutOff a b b')
    (hc : Untouched b' c) : CutOff a b c :=
  ⟨hc.active.trans h.active, hc.deeds.trans h.deeds, by rw [hc.memory]; exact h.memory,
    hc.phases.trans h.phases⟩

theorem cutOff_finish (E : Engine φ σ) {b : Bench (φ × Nat) (Recorded σ)} {a : Active} (ha : b.active? = some a)
    (hl : (b.finish E.recorded).life ≠ .crashed) : CutOff a b (b.finish E.recorded) := by
  obtain ⟨e, hb⟩ := hosted_of_active? ha
  rcases hc : E.cleanup (b.memory.io a.io) e.engine with ⟨r, s, left⟩
  have hc' : E.recorded.cleanup (b.memory.io a.io) e = (r, e.enter s (.called .cleanup), left) := by
    simp only [Engine.recorded, hc]
  by_cases hr : r = .crashed
  · subst hr
    rw [finish_crashed _ hb hc'] at hl
    exact absurd rfl hl
  · rw [finish_ended _ hb hc' hr]
    refine ⟨rfl, ?_, ⟨left, rfl⟩, by simp⟩
    simp only [Bench.deeds, hb, Option.map_some]
    refine congrArg some ?_
    rw [← e.deeds_called s .cleanup]
    exact (e.enter s _).deeds_gave _ _

/-! ### Reachable workers -/

/-- An engine that was just drained has nothing to tell, and to ask it again changes nothing. -/
def TellsOnce (E : Engine φ σ) : Prop := ∀ s, E.drain (E.drain s).2 = ([], (E.drain s).2)

/-- With an engine that tells its lines once, to drain it again is nothing. -/
theorem forward_of_drained {E : Engine φ σ} (hE : TellsOnce E) {b : Bench φ σ}
    (hb : ∀ h, b.hosted = some h → ∃ s, h.engine = (E.drain s).2) : b.forward E = b := by
  cases hh : b.hosted with
  | none => rw [forward, hh]
  | some h =>
    obtain ⟨s, hs⟩ := hb h hh
    have hd : E.drain h.engine = ([], h.engine) := by rw [hs, hE]
    simp only [forward, hh, hd, List.map_nil, List.append_nil]
    rw [← hh]

/-- A worker that serves has always drained its engine. -/
theorem drained_of_run (E : Engine φ σ) (factory : φ) (memory : Memory) (inputs : List Input) :
    let c := run E { factory := factory, memory := memory } inputs
    c.life ≠ .crashed → ∀ h, c.hosted = some h → ∃ s, h.engine = (E.drain s).2 := by
  intro c hl h hc
  let start : Bench (φ × Nat) (Recorded σ) := { factory := (factory, 0), memory := memory }
  have hm : Mirrored Prod.fst Recorded.engine Eq (run E.recorded start inputs) c :=
    run_mirrored E.recorded_mirrors inputs ⟨rfl, rfl, rfl, rfl, rfl, rfl⟩
  have hstart : Chronicle ([] : List (Recorded σ)) start := ⟨.nil, rfl, rfl⟩
  obtain ⟨-, hdrained⟩ :=
    run_chronicle (E := E) inputs hstart Recorded.forall_drained_nil (by rw [hm.life]; exact hl)
  rw [← hm.hosted] at hc
  obtain ⟨k, hk, rfl⟩ := Option.map_eq_some_iff.1 hc
  have hmem : k.engine ∈ start.instances E.recorded inputs := by
    refine List.mem_append_right _ ?_
    rw [engines_of_hosted hk]
    exact List.mem_singleton_self _
  obtain ⟨-, lines, s, -, hs⟩ := hdrained k.engine hmem
  exact ⟨s, by rw [hs]; rfl⟩

theorem Mirrored.misses {φ' σ' : Type} {f : φ' → φ} {g : σ' → σ} {Q : List Event → List Event → Prop}
    {b : Bench φ' σ'} {c : Bench φ σ} (h : Mirrored f g Q b c) {r : Request} (hr : c.Misses r) : b.Misses r := by
  obtain ⟨number, hn, hc⟩ := hr
  refine ⟨number, hn, fun hb => hc ⟨hb.1.trans h.number, fun hnone => hb.2 ?_⟩⟩
  rw [← h.hosted] at hnone
  exact Option.map_eq_none_iff.1 hnone

theorem Mirrored.interrupts_iff {φ' σ' : Type} {f : φ' → φ} {g : σ' → σ} {Q : List Event → List Event → Prop}
    {b : Bench φ' σ'} {c : Bench φ σ} (h : Mirrored f g Q b c) (r : Request) : b.Interrupts r ↔ c.Interrupts r := by
  rw [Interrupts, Interrupts, h.active?]

/-- **A request that misses is refused and touches nothing, exactly if it is no reset while a performance runs.**
For every engine, after any requests and steps, while the worker serves, and with the record of what happened to
its engines:

* the worker is the same as without the record, before the request and after it;
* the request is refused, no engine is called, the performance and the memory are as they were and no phase is
  reported, exactly if it does not interrupt;
* then the worker only reports what its engine has printed, as after every request; and if the engine tells its
  lines once, the worker is literally as it was;
* if it does interrupt, it is refused as well unless the worker crashes, but the performance was cut off. -/
theorem refused_iff (E : Engine φ σ) (factory : φ) (memory : Memory) (inputs : List Input) (r : Request)
    (hl : (run E { factory := factory, memory := memory } inputs).life = .serving)
    (hr : (run E { factory := factory, memory := memory } inputs).Misses r) :
    let c := run E { factory := factory, memory := memory } inputs
    let b := run E.recorded { factory := (factory, 0), memory := memory } inputs
    Mirrored Prod.fst Recorded.engine Eq b c ∧
    (b.handle E.recorded r).1 = (c.handle E r).1 ∧
    Mirrored Prod.fst Recorded.engine Eq (b.handle E.recorded r).2 (c.handle E r).2 ∧
    (Refused c r (c.handle E r).1 ∧ Untouched b (b.handle E.recorded r).2 ↔ ¬c.Interrupts r) ∧
    (¬c.Interrupts r → (c.handle E r).2 = c.forward E ∧ (TellsOnce E → (c.handle E r).2 = c)) ∧
    ∀ a, c.active? = some a → c.Interrupts r → (c.handle E r).2.life ≠ .crashed →
      Refused c r (c.handle E r).1 ∧ CutOff a b (b.handle E.recorded r).2 := by
  intro c b
  have hm : Mirrored Prod.fst Recorded.engine Eq b c :=
    run_mirrored E.recorded_mirrors inputs ⟨rfl, rfl, rfl, rfl, rfl, rfl⟩
  obtain ⟨hanswer, hm'⟩ := handle_mirrored E.recorded_mirrors r hm
  have hc : c.life ≠ .crashed := by
    rw [hl]
    decide
  have hb : b.life ≠ .crashed := by rwa [hm.life]
  have hrb : b.Misses r := hm.misses hr
  refine ⟨hm, hanswer, hm', ⟨?_, fun hi => ?_⟩, fun hi => ?_, fun a ha hi hx => ?_⟩
  · -- a reset has ended the performance that ran
    rintro ⟨-, huntouched⟩ hi
    obtain ⟨⟨number, rfl⟩, ha⟩ := hi
    have hidle : (b.handle E.recorded (.reset number)).2.active? = none := handle_reset_idle E.recorded b number
    rw [huntouched.active, hm.active?] at hidle
    exact ha hidle
  · obtain ⟨hrefused, -⟩ := handle_of_misses E hc hr hi
    obtain ⟨-, hforward⟩ := handle_of_misses E.recorded hb hrb fun h => hi ((hm.interrupts_iff r).1 h)
    rw [hforward]
    exact ⟨hrefused, untouched_forward E b⟩
  · obtain ⟨-, hforward⟩ := handle_of_misses E hc hr hi
    refine ⟨hforward, fun hE => ?_⟩
    rw [hforward]
    exact forward_of_drained hE (drained_of_run E factory memory inputs hc)
  · have hx' : (c.finish E).life ≠ .crashed := by
      intro hcrash
      obtain ⟨⟨number, rfl⟩, -⟩ := hi
      rw [handle, reset, if_pos hcrash] at hx
      exact hx rfl
    have hf := finish_mirrored E.recorded_mirrors hm
    have hxb : (b.finish E.recorded).life ≠ .crashed := by rwa [hf.life]
    have hab : b.active? = some a := hm.active?.trans ha
    obtain ⟨hrefused, -⟩ := handle_of_interrupts E hr hi hx'
    obtain ⟨-, hforward⟩ := handle_of_interrupts E.recorded hrb ((hm.interrupts_iff r).2 hi) hxb
    rw [hforward]
    exact ⟨hrefused, (cutOff_finish E hab hxb).untouched (untouched_forward E _)⟩

/-- While a performance runs, a call for another engine than the hosted one touches nothing; a reset for it is
refused too, but the performance has ended. -/
theorem refused_iff_scribe :
    let memory := (Memory.allocIo {} 4 1).2
    let inputs : List Input := [.request (.build {}), .request (.start 1 ⟨0, 0⟩), .idle false]
    let c := run scribe { factory := (), memory := memory } inputs
    let b := run scribe.recorded { factory := ((), 0), memory := memory } inputs
    c.life = .serving ∧ c.Misses (.call 99 .getSr []) ∧ c.Misses (.reset 99) ∧
    (c.handle scribe (.call 99 .getSr [])).2 = c ∧
    Refused c (.reset 99) (c.handle scribe (.reset 99)).1 ∧
    ¬Untouched b (b.handle scribe.recorded (.reset 99)).2 ∧
    CutOff ⟨⟨0, 0⟩, .realtime⟩ b (b.handle scribe.recorded (.reset 99)).2 := by
  intro memory inputs c b
  have hl : c.life = .serving := by decide
  have hcall : c.Misses (.call 99 .getSr []) := ⟨99, rfl, fun h => absurd h.1 (by decide)⟩
  have hreset : c.Misses (.reset 99) := ⟨99, rfl, fun h => absurd h.1 (by decide)⟩
  have hactive : c.active? = some ⟨⟨0, 0⟩, .realtime⟩ := by decide
  have hinterrupts : c.Interrupts (.reset 99) := ⟨⟨99, rfl⟩, by rw [hactive]; simp⟩
  obtain ⟨-, -, -, -, huntouched, -⟩ := refused_iff scribe () memory inputs (.call 99 .getSr []) hl hcall
  obtain ⟨-, -, -, hiff, -, hcut⟩ := refused_iff scribe () memory inputs (.reset 99) hl hreset
  obtain ⟨hrefused, hcutOff⟩ := hcut _ hactive hinterrupts (by decide)
  have hkept := (huntouched fun h => by obtain ⟨⟨n, hn⟩, -⟩ := h; cases hn).2 fun _ => rfl
  exact ⟨hl, hcall, hreset, hkept, hrefused, fun h => hiff.1 ⟨hrefused, h⟩ hinterrupts, hcutOff⟩

end Bench
end SynthControl
