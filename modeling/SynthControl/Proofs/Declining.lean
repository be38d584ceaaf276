import SynthControl.Proofs.Indifference

/-!
# Requests that are turned down

A start cannot be asked for once the worker is gone, a stop has to find a phase that can be stopped and a worker
that can be told, and a pause or a resumption has to find the words of the region as it needs them.  Each of
them looks before it writes: a request that is turned down leaves no trace anywhere.

* `Transport.Output.declines`, `Stage.bars` — the answers that turn a request down, and what stands in its way;
* `declines_act` — **a request is turned down exactly when something stands in its way**;
* `act_of_declines` — **and then the stage is what it was**, with everyone who would have been told;
* `heeded`, `run_heeded` — a run without the requests that it turned down, and **it comes to the same**;
* `declined_requests` — all of this, for each of the requests.
-/

namespace SynthControl

/-- The answers that turn a request down. -/
def Transport.Output.declines : Output → Bool
  | .entered none | .stopping (.ok none) => true
  | .stopping (.error .disconnected) | .armed (.error .disconnected) => true
  | _ => false

namespace Stage

variable {κ : Type}

/-! ### A single request -/

/-- What stands in the way of a request: the region that it would write, the phase, or a worker that is
gone. -/
def bars (s : Stage κ) : Transport.Op → Bool
  | .armStart => s.transport.disconnected
  | .pause => !(s.region.get .paused != 1 && isRunning s.region)
  | .resume => !(s.region.get .paused == 1 && isRunning s.region)
  | .requestStop => !s.transport.current.isStoppable || s.transport.disconnected
  | .dropStart | .change _ | .replaceRegion | .disconnect | .take _ => false

/-- How a request to stop is answered. -/
theorem requestStop_answer (s : Stage κ) :
    s.requestStop.1 =
      if s.transport.current.isStoppable = false then .ok none
      else if s.transport.disconnected = true then .error .disconnected
      else .ok (some s.transport.completions.size) := by
  rw [requestStop]
  cases s.transport.current.isStoppable with
  | false => rfl
  | true =>
    cases s.transport.disconnected with
    | true => rfl
    | false =>
      show Except.ok (some s.transport.dropStop.completions.size) = _
      rw [Transport.size_dropStop]
      rfl

/-- **A request is turned down exactly when something stands in its way.** -/
theorem declines_act (S : Surroundings κ) (s : Stage κ) (op : Transport.Op) :
    (s.act S op).1.declines = s.bars op := by
  cases op with
  | armStart =>
    show (Transport.Output.armed s.transport.armStart.1).declines = s.transport.disconnected
    rw [Transport.armStart]
    cases s.transport.disconnected <;> rfl
  | pause =>
    rw [act, pause, bars]
    cases s.region.get .paused != 1 && isRunning s.region <;> rfl
  | resume =>
    rw [act, resume, bars]
    cases s.region.get .paused == 1 && isRunning s.region <;> rfl
  | requestStop =>
    rw [act, requestStop_answer, bars]
    cases s.transport.current.isStoppable <;> cases s.transport.disconnected <;> rfl
  | dropStart | change _ | replaceRegion | disconnect | take _ => rfl

/-- **A request that is turned down leaves everything as it was**, and nobody was told of it. -/
theorem act_of_declines {S : Surroundings κ} {s : Stage κ} {op : Transport.Op}
    (h : (s.act S op).1.declines = true) : (s.act S op).2 = s := by
  rw [declines_act] at h
  cases op with
  | armStart =>
    have hgone : s.transport.disconnected = true := h
    show s.onTransport (fun t => t.armStart.2) = s
    rw [onTransport, Transport.armStart, if_pos hgone]
  | pause =>
    rw [act, pause_refused]
    rw [bars, Bool.not_eq_true'] at h
    rw [pause, h]
    rfl
  | resume =>
    rw [act, resume_refused]
    rw [bars, Bool.not_eq_true'] at h
    rw [resume, h]
    rfl
  | requestStop =>
    refine requestStop_refused fun i hi => ?_
    rw [requestStop_answer] at hi
    rw [bars] at h
    cases hp : s.transport.current.isStoppable <;> cases hd : s.transport.disconnected <;>
      simp_all
  | dropStart | change _ | replaceRegion | disconnect | take _ => cases h

/-! ### Runs -/

/-- The turns of a run, without the requests that it turns down. -/
def heeded (S : Surroundings κ) : List Turn → Stage κ → List Turn
  | [], _ => []
  | a :: turns, s =>
    let rest := heeded S turns (s.turn S a).2
    if (s.turn S a).1.declines then rest else a :: rest

/-- A turn that is turned down leaves everything as it was. -/
theorem turn_of_declines {S : Surroundings κ} {s : Stage κ} {a : Turn}
    (h : (s.turn S a).1.declines = true) : (s.turn S a).2 = s := by
  cases a with
  | own op => exact act_of_declines h
  | others f => cases h

/-- **A run comes to the same without the requests that it turns down**, and shows the same apart from them. -/
theorem run_heeded (S : Surroundings κ) (turns : List Turn) (s : Stage κ) :
    final (watch S) (heeded S turns s) s = final (watch S) turns s ∧
      outputs (watch S) (heeded S turns s) s =
        (outputs (watch S) turns s).filter fun o => !o.1.declines := by
  induction turns generalizing s with
  | nil => exact ⟨rfl, rfl⟩
  | cons a turns ih =>
    obtain ⟨hfinal, houtputs⟩ := ih (s.turn S a).2
    rw [heeded, final, outputs, List.filter_cons]
    -- a turn is watched, and leaves the stage that it leaves
    show final _ (if (s.turn S a).1.declines then _ else _) _ = final _ turns (s.turn S a).2 ∧
      outputs _ (if (s.turn S a).1.declines then _ else _) _ =
        if !(s.turn S a).1.declines then _ :: List.filter _ (outputs _ turns (s.turn S a).2)
        else List.filter _ (outputs _ turns (s.turn S a).2)
    cases h : (s.turn S a).1.declines with
    | true =>
      -- the rest of the run begins with the stage that turned the request down
      rw [turn_of_declines h] at hfinal houtputs ⊢
      exact ⟨hfinal, houtputs⟩
    | false => exact ⟨hfinal, congrArg _ houtputs⟩

/-! ### Everyone who would have been told -/

/-- **Someone is told of an operation exactly when it enters a phase.** -/
theorem told_nobody_iff (S : Surroundings κ) (s : Stage (κ × List Surroundings.Entry)) (op : Transport.Op) :
    (s.act S.recorded op).2.around.2 = s.around.2 ↔ (s.act S.recorded op).1.phase? = none := by
  obtain ⟨told, htold, made, hlog, hcalls, -⟩ := told_act S s op
  rw [hlog, List.append_right_eq_self]
  cases hphase : (s.act S.recorded op).1.phase? with
  | none =>
    rw [hphase] at htold
    obtain rfl : told = [] := List.map_eq_nil_iff.1 htold
    exact iff_of_true (List.map_eq_nil_iff.1 hcalls) rfl
  | some p =>
    rw [hphase] at htold
    obtain ⟨t, rfl, rfl⟩ := List.map_eq_singleton_iff.1 htold
    -- whatever else is due, the phase is forwarded
    have hforwarded : Call.follow t.1 ∈ made.map fun e => e.call := by
      rw [hcalls]
      simp [due]
    refine iff_of_false (fun hmade => ?_) nofun
    rw [hmade] at hforwarded
    cases hforwarded

/-! ### Every request -/

/-- **Requests that are turned down change nothing.**  Whatever the transport has been through, whatever the
memory holds, and whoever would be told:

* a pause or a resumption that did not happen, a stop that was not needed or could not be told, and a start that
  cannot be waited for leave the stage as it was, with the memory, the phase, the completions, and the notes of
  all that listeners and coordinator were told, who are told of nothing but phases that are entered;
* a stop is not needed exactly when the phase cannot be stopped, and cannot be told exactly when it could be but
  the worker is gone;
* a run of any length comes to the same without the requests that it turns down, and shows the same apart from
  them. -/
theorem declined_requests (S : Surroundings κ) (s : Stage (κ × List Surroundings.Entry)) :
    ((s.pause S.recorded).1 = false → (s.pause S.recorded).2 = s) ∧
    ((s.resume S.recorded).1 = false → (s.resume S.recorded).2 = s) ∧
    (s.requestStop.1 = .ok none ∨ s.requestStop.1 = .error .disconnected → s.requestStop.2 = s) ∧
    (s.transport.armStart.1 = .error .disconnected → s.transport.armStart.2 = s.transport) ∧
    (∀ op, (s.act S.recorded op).2.around.2 = s.around.2 ↔ (s.act S.recorded op).1.phase? = none) ∧
    (s.requestStop.1 = .ok none ↔ s.transport.current.isStoppable = false) ∧
    (s.requestStop.1 = .error .disconnected ↔
      s.transport.current.isStoppable = true ∧ s.transport.disconnected = true) ∧
    ∀ turns,
      final (watch S.recorded) (heeded S.recorded turns s) s = final (watch S.recorded) turns s ∧
      outputs (watch S.recorded) (heeded S.recorded turns s) s =
        (outputs (watch S.recorded) turns s).filter fun o => !o.1.declines := by
  have hstop := s.requestStop_answer
  refine ⟨pause_refused, resume_refused, ?_, ?_, told_nobody_iff S s, ?_, ?_,
    fun turns => run_heeded S.recorded turns s⟩
  · refine fun h => requestStop_refused fun i hi => ?_
    rcases h with h | h <;> rw [hi] at h <;> cases h
  · intro h
    have hdeclined : (s.act S.recorded .armStart).1.declines = true := by
      show (Transport.Output.armed s.transport.armStart.1).declines = true
      rw [h]
      rfl
    exact congrArg transport (act_of_declines hdeclined)
  · rw [hstop]
    cases s.transport.current.isStoppable <;> cases s.transport.disconnected <;> simp
  · rw [hstop]
    cases s.transport.current.isStoppable <;> cases s.transport.disconnected <;> simp

/-- A performance that is paused and was told to stop, when the worker is gone: every request is turned down. -/
theorem declined_requests_paused :
    let memory := (Memory.allocIo {} 4 1).2.modifyRegion 0 fun r => (r.set .paused 1).set .stop 1
    let t : Transport := { io := ⟨0, 0⟩, current := .realtimePaused, disconnected := true }
    let s : Stage (Unit × List Surroundings.Entry) := ⟨t, memory, ((), [])⟩
    let turns : List Turn := [.own .pause, .own .resume, .own .armStart, .own .requestStop]
    (s.pause meddler.recorded).2 = s ∧ (s.resume meddler.recorded).2 = s ∧
      s.requestStop.1 = .error .disconnected ∧ s.requestStop.2 = s ∧ t.armStart.2 = t ∧
      heeded meddler.recorded turns s = [] ∧ final (watch meddler.recorded) turns s = s := by
  intro memory t s turns
  obtain ⟨hpause, hresume, hstop, harm, -, -, hgone, hrun⟩ := declined_requests meddler s
  have hlost : s.requestStop.1 = .error .disconnected := hgone.2 ⟨rfl, rfl⟩
  have hheeded : heeded meddler.recorded turns s = [] := by rfl
  have hfinal := (hrun turns).1
  rw [hheeded] at hfinal
  exact ⟨hpause (by decide), hresume (by decide), hlost, hstop (.inr hlost), harm rfl, hheeded, hfinal.symm⟩

end Stage
end SynthControl
