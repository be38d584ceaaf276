import Mathlib.Data.List.Infix
import SynthControl.Proofs.Completions
import SynthControl.Proofs.Runs

/-!
# Completions come once, and in time

What a completion gives to those who look at it, in any run of operations.

* `received`, `firstVerdict` — what a completion gave in a run, and the first decision over it;
* `Gave` — it gave what the decision says, or has it still to give;
* `gave_of_settled`, `gave_of_awaited` — **the first decision holds**, by induction on the run;
* `Stage.script`, `change_eq_script` — the single acts of the entry of a phase;
* `tell_mem_of_stopped` — **when a stop is completed the coordinator was told, and the region is pristine**;
* `completions_one_shot` — all of it, for any coordinator, any listeners and any run.
-/

namespace SynthControl

namespace Transport

/-! ### What a completion gives in a run -/

/-- What a completion gives to one who looks at it. -/
def given (c : Nat) : Op → Output → List PlayState
  | .take i, .found k => if i = c then k.phases else []
  | _, _ => []

/-- What a completion gave in a run to those who looked at it, one after another. -/
def received (c : Nat) (ops : List Op) (outs : List Output) : List PlayState :=
  (ops.zip outs).flatMap fun x => given c x.1 x.2

/-- The first decision that a run makes over a completion; it stays open if there is none. -/
def firstVerdict (v : Op → Output → Option Completion) (ops : List Op) (outs : List Output) :
    Completion :=
  ((ops.zip outs).findSome? fun x => v x.1 x.2).getD .opened

/-- A completion came to `k`: this it shows now, and this it gave. -/
inductive Gave : Completion → Completion → List PlayState → Prop where
  /-- Nobody took anything, and what it came to is there. -/
  | untaken (k : Completion) : Gave k k []
  /-- The phase was taken, once. -/
  | taken (p : PlayState) : Gave (.resolved p) .closed [p]

theorem Gave.length_le {k look : Completion} {ps : List PlayState} (h : Gave k look ps) :
    (ps ++ look.phases).length ≤ 1 := by
  cases h with
  | untaken k => cases k <;> simp [Completion.phases]
  | taken p => exact Nat.le_refl 1

/-- What a completion came to was taken, and there is nothing more. -/
theorem Gave.cons {k look : Completion} {ps : List PlayState} (h : Gave .closed look ps)
    (hk : k ≠ .opened) : Gave k look (k.phases ++ ps) := by
  cases h with
  | untaken =>
    cases k with
    | opened => exact absurd rfl hk
    | resolved p => exact .taken p
    | closed => exact .untaken .closed

theorem firstVerdict_cons (v : Op → Output → Option Completion) (op : Op) (ops : List Op) (o : Output)
    (outs : List Output) :
    firstVerdict v (op :: ops) (o :: outs) = (v op o).getD (firstVerdict v ops outs) := by
  show (List.findSome? _ (_ :: _)).getD _ = _
  rw [List.findSome?_cons]
  cases v op o <;> rfl

end Transport

namespace Stage

open Transport

variable {κ : Type} (S : Surroundings κ)

/-- What a completion gives is what it shows, to one who takes it. -/
theorem given_act (c : Nat) (op : Op) (s : Stage κ) :
    given c op (s.act S op).1 = if op = .take c then (s.transport.completions.look c).phases else [] := by
  cases op with
  | take i =>
    show (if i = c then (s.transport.completions.look i).phases else []) = _
    by_cases hi : i = c
    · rw [hi, if_pos rfl, if_pos rfl]
    · rw [if_neg hi, if_neg fun h => hi (Op.take.inj h)]
  | _ => rfl

theorem proper_final {s : Stage κ} (h : Proper s.transport) (ops : List Op) :
    Proper (final (act S) ops s).transport :=
  final_invariant (P := fun s => Proper s.transport) (fun op s hs => hs.step (act_cases S op s)) h ops

/-- What a completion came to is there, or it was taken once, whatever happens. -/
theorem gave_of_settled {s : Stage κ} {c : Nat} {k : Completion} (h : Settled s.transport c k)
    (hk : k ≠ .opened) (ops : List Op) :
    Gave k ((final (act S) ops s).transport.completions.look c)
      (received c ops (outputs (act S) ops s)) := by
  induction ops generalizing s k with
  | nil =>
    rw [show (final (act S) [] s).transport.completions.look c = k from h.look_eq]
    exact .untaken k
  | cons op ops ih =>
    have hgiven := s.given_act S c op
    have hnext := h.step hk (act_cases S op s)
    show Gave k _ (given c op (s.act S op).1 ++ received c ops _)
    rw [hgiven, h.look_eq]
    by_cases hop : op = .take c
    · rw [if_pos hop]
      rw [if_pos hop] at hnext
      exact (ih hnext nofun).cons hk
    · rw [if_neg hop]
      rw [if_neg hop] at hnext
      exact ih hnext hk

/-- If every operation either leaves a completion waited for or decides what it comes to, the first decision
holds. -/
theorem gave_of_awaited {v : Op → Output → Option Completion} {Awaits : Transport → Nat → Prop}
    (hopened : ∀ t c, Awaits t c → t.completions.look c = .opened)
    (hstep : ∀ {t t' : Transport} {op : Op} {o : Output} {c : Nat},
      Awaits t c → Proper t → Acted t op o t' →
      match v op o with
      | none => Awaits t' c
      | some k => k ≠ .opened ∧ Settled t' c k)
    {s : Stage κ} {c : Nat} (h : Awaits s.transport c) (hb : Proper s.transport) (ops : List Op) :
    Gave (firstVerdict v ops (outputs (act S) ops s))
      ((final (act S) ops s).transport.completions.look c)
      (received c ops (outputs (act S) ops s)) := by
  induction ops generalizing s with
  | nil =>
    rw [show (final (act S) [] s).transport.completions.look c = .opened from hopened _ c h]
    exact .untaken .opened
  | cons op ops ih =>
    have hacted := act_cases S op s
    have hnext := hstep h hb hacted
    have hgiven : given c op (s.act S op).1 = [] := by
      rw [given_act, hopened _ c h]
      exact ite_self []
    show Gave (firstVerdict v (op :: ops) ((s.act S op).1 :: _)) _
      (given c op (s.act S op).1 ++ received c ops _)
    rw [hgiven, firstVerdict_cons]
    cases hv : v op (s.act S op).1 with
    | none =>
      rw [hv] at hnext
      exact ih hnext (hb.step hacted)
    | some k =>
      rw [hv] at hnext
      exact gave_of_settled S hnext.2 hnext.1 ops

/-- No completion gives two phases. -/
theorem length_received_le {s : Stage κ} (hb : Proper s.transport) (c : Nat) (ops : List Op) :
    (received c ops (outputs (act S) ops s) ++
      ((final (act S) ops s).transport.completions.look c).phases).length ≤ 1 := by
  induction ops generalizing s with
  | nil =>
    show (s.transport.completions.look c).phases.length ≤ 1
    cases s.transport.completions.look c <;> simp [Completion.phases]
  | cons op ops ih =>
    have hnext := hb.step (act_cases S op s)
    by_cases hphases : (s.transport.completions.look c).phases = []
    · have hgiven : given c op (s.act S op).1 = [] := by
        rw [given_act, hphases]
        exact ite_self []
      show (given c op (s.act S op).1 ++ received c ops _ ++ _).length ≤ 1
      rw [hgiven]
      exact ih hnext
    · -- from here on it is settled
      have hk : s.transport.completions.look c ≠ .opened := fun h => hphases (by rw [h]; rfl)
      have hissued := s.transport.completions.lt_size_of_look fun h => hphases (by rw [h]; rfl)
      have hsettled : Settled s.transport c (s.transport.completions.look c) :=
        ⟨hissued, rfl, fun h => hk (hb.start_open c h), fun h => hk (hb.stop_open c h)⟩
      exact (gave_of_settled S hsettled hk (op :: ops)).length_le

/-! ### After the worker is gone -/

/-- The worker does not come back. -/
theorem disconnected_step {t t' : Transport} {op : Op} {o : Output} (ha : Acted t op o t')
    (h : t.disconnected = true ∨ op = .disconnect) : t'.disconnected = true := by
  have hframe := fun p => (t.enter_frame p).2.1
  cases ha with
  | disconnects => rfl
  | _ =>
    have ht : t.disconnected = true := h.resolve_right nofun
    simp [ht, hframe]

theorem disconnected_of_mem {s : Stage κ} {ops : List Op}
    (h : s.transport.disconnected = true ∨ Op.disconnect ∈ ops) :
    (final (act S) ops s).transport.disconnected = true := by
  induction ops generalizing s with
  | nil => exact h.resolve_right (List.not_mem_nil)
  | cons op ops ih =>
    refine ih ?_
    by_cases hmem : Op.disconnect ∈ ops
    · exact .inr hmem
    · refine .inl (disconnected_step (act_cases S op s) ?_)
      rcases h with h | h
      · exact .inl h
      · exact .inr ((List.mem_cons.1 h).resolve_right hmem).symm

/-! ### The entry of a phase, act by act -/

/-- A single act of the entry of a phase. -/
inductive Act where
  | enter
  | configure
  | reset
  | announce
  /-- The coordinator is told. -/
  | tell
  | completeStop
  | completeStart
  deriving DecidableEq

/-- Do a single act of the entry of a phase. -/
def perform (p : PlayState) (s : Stage κ) : Act → Stage κ
  | .enter => s.onTransport fun t => { t with current := p }
  | .configure => s.configure S
  | .reset => s.onRegion Region.reset
  | .announce => s.announce S p
  | .tell => s.follow S p
  | .completeStop => s.onTransport fun t => t.resolveStop p
  | .completeStart => s.onTransport fun t => t.resolveStart p

/-- What the entry of a phase consists of. -/
def script (p : PlayState) : List Act :=
  .enter ::
    (match p with
      | .realtimeStarted => [.configure, .announce]
      | .realtimeEnded | .renderEnded => [.reset, .announce]
      | .realtimePaused | .realtimeResumed | .renderStarted => [.announce]
      | .stopped => []) ++
    .tell :: (if p.isEnded then [.reset, .completeStop] else []) ++ [.completeStart]

/-- The entry of a phase is its script. -/
theorem change_eq_script (p : PlayState) (s : Stage κ) :
    s.change S p = (script p).foldl (perform S p) s := by
  cases p <;> rfl

/-- Only an end completes the stop. -/
theorem isEnded_of_mem_script {p : PlayState} (h : .completeStop ∈ script p) : p.isEnded = true := by
  revert h
  cases p <;> decide

theorem script_of_isEnded {p : PlayState} (h : p.isEnded = true) :
    script p = [.enter, .reset, .announce, .tell, .reset, .completeStop, .completeStart] := by
  cases p <;> first | rfl | cases h

/-- When the stop is completed the coordinator was told, and the region was reset right before. -/
theorem prefix_script_completeStop {p : PlayState} {done : List Act} (hdone : done <+: script p)
    (hstop : .completeStop ∈ done) :
    ∃ after, done = [.enter, .reset, .announce, .tell] ++ .reset :: .completeStop :: after ∧
      (after = [] ∨ after = [.completeStart]) := by
  rw [script_of_isEnded (isEnded_of_mem_script (hdone.subset hstop))] at hdone
  have hinits := (List.mem_inits _ _).2 hdone
  have hcases : ∀ done ∈
      List.inits [Act.enter, .reset, .announce, .tell, .reset, .completeStop, .completeStart],
      .completeStop ∈ done →
        done = [.enter, .reset, .announce, .tell, .reset, .completeStop] ∨
          done = [.enter, .reset, .announce, .tell, .reset, .completeStop, .completeStart] := by
    decide
  rcases hcases done hinits hstop with rfl | rfl
  · exact ⟨[], rfl, .inl rfl⟩
  · exact ⟨[.completeStart], rfl, .inr rfl⟩

/-- Only the completion of the stop touches it. -/
theorem awaitsStop_perform {s : Stage κ} {c : Nat} (h : AwaitsStop s.transport c) (p : PlayState)
    {a : Act} (ha : a ≠ .completeStop) : AwaitsStop (s.perform S p a).transport c := by
  cases a with
  | completeStop => exact absurd rfl ha
  | completeStart =>
    obtain ⟨hsignal, hopened, hstart⟩ := h
    refine ⟨?_, ?_, ?_⟩
    · show (s.transport.resolveStart p).stopSignal = some c
      rw [(Transport.resolveStart_frame _ p).1]
      exact hsignal
    · show (s.transport.resolveStart p).completions.look c = .opened
      rw [look_resolveStart, if_neg fun hc => hstart hc.1]
      exact hopened
    · show (s.transport.resolveStart p).startSignal ≠ some c
      rw [resolveStart_startSignal]
      exact nofun
  | _ => exact ⟨h.signal, h.opened, h.not_start⟩

theorem awaitsStop_foldl {s : Stage κ} {c : Nat} (h : AwaitsStop s.transport c) (p : PlayState)
    {done : List Act} (hdone : .completeStop ∉ done) :
    AwaitsStop (done.foldl (perform S p) s).transport c := by
  induction done generalizing s with
  | nil => exact h
  | cons a done ih =>
    obtain ⟨ha, hrest⟩ := not_or.1 (mt List.mem_cons.2 hdone)
    exact ih (awaitsStop_perform S h p (Ne.symm ha)) hrest

/-- Completing leaves the region as it is. -/
theorem region_reset_completed (p : PlayState) (s : Stage κ) {after : List Act}
    (hafter : after = [] ∨ after = [.completeStart]) :
    ((Act.reset :: .completeStop :: after).foldl (perform S p) s).region.isPristine = true := by
  refine Region.isPristine_iff.2 fun f => ?_
  have hreset := Memory.get_modifyRegion_reset s.memory s.transport.io.region f
  rcases hafter with rfl | rfl
  · show ((s.memory.modifyRegion _ _).region (s.transport.resolveStop p).io.region).get f = _
    rw [resolveStop_io]
    exact hreset
  · show ((s.memory.modifyRegion _ _).region
      ((s.transport.resolveStop p).resolveStart p).io.region).get f = _
    rw [resolveStart_io, resolveStop_io]
    exact hreset

/-- **When the stop is completed the coordinator was told, and the region is pristine.** -/
theorem tell_mem_of_stopped {s : Stage κ} {c : Nat} (h : AwaitsStop s.transport c) {p : PlayState}
    {done : List Act} (hdone : done <+: script p)
    (hc : (done.foldl (perform S p) s).transport.completions.look c ≠ .opened) :
    .tell ∈ done ∧ (done.foldl (perform S p) s).region.isPristine = true := by
  have hstop : .completeStop ∈ done := by
    by_contra hstop
    exact hc (awaitsStop_foldl S h p hstop).opened
  obtain ⟨after, rfl, hafter⟩ := prefix_script_completeStop hdone hstop
  refine ⟨by simp, ?_⟩
  rw [List.foldl_append]
  exact region_reset_completed S p _ hafter

/-- Nothing but the entry of an end completes a stop. -/
theorem change_of_stopped {s : Stage κ} {c : Nat} (h : AwaitsStop s.transport c) (hb : Proper s.transport)
    {op : Op} {q : PlayState} (hc : (s.act S op).2.transport.completions.look c = .resolved q) :
    op = .change q ∧ q.isEnded = true := by
  have hacted := act_cases S op s
  have hnext := h.step hb hacted
  generalize (s.act S op).2.transport = t' at hacted hnext hc
  generalize (s.act S op).1 = o at hacted hnext
  cases hv : stopVerdict op o with
  | none =>
    rw [hv] at hnext
    rw [hnext.opened] at hc
    cases hc
  | some k =>
    rw [hv] at hnext
    obtain rfl : k = .resolved q := hnext.2.look_eq.symm.trans hc
    cases hacted with
    | changes p =>
      by_cases hp : p.isEnded = true
      · obtain rfl : p = q := by simpa [stopVerdict, hp] using hv
        exact ⟨rfl, hp⟩
      · simp [stopVerdict, hp] at hv
    | cannotStop r hr =>
      cases r with
      | error e => cases hv
      | ok i =>
        cases i with
        | none => cases hv
        | some i => exact absurd rfl (hr i)
    | _ => cases hv

/-! ### Completions are one-shot -/

/-- A start that was asked for is waited for. -/
theorem awaitsStart_of_armed {s s' : Stage κ} {c : Nat} (hb : Proper s.transport)
    (h : s.act S .armStart = (.armed (.ok c), s')) : AwaitsStart s'.transport c := by
  have hacted := act_cases S .armStart s
  rw [h] at hacted
  have hlt := hb.lt_size (c := c)
  generalize s'.transport = t' at hacted
  cases hacted with
  | arms hd =>
    refine ⟨rfl, ?_, ?_⟩
    · show s.transport.dropStart.completions.issue.2.look _ = .opened
      rw [look_issue_dropStart, if_pos rfl]
    · show s.transport.dropStart.stopSignal ≠ _
      rw [dropStart_stopSignal]
      intro hstop
      exact Nat.lt_irrefl _ (hlt (.inr hstop))

/-- A stop that was asked for is waited for. -/
theorem awaitsStop_of_stopping {s s' : Stage κ} {c : Nat} (hb : Proper s.transport)
    (h : s.act S .requestStop = (.stopping (.ok (some c)), s')) : AwaitsStop s'.transport c := by
  have hacted := act_cases S .requestStop s
  rw [h] at hacted
  have hlt := hb.lt_size (c := c)
  generalize s'.transport = t' at hacted
  cases hacted with
  | stops hd =>
    refine ⟨rfl, ?_, ?_⟩
    · show s.transport.dropStop.completions.issue.2.look _ = .opened
      rw [look_issue_dropStop, if_pos rfl]
    · show s.transport.dropStop.startSignal ≠ _
      rw [dropStop_startSignal]
      intro hstart
      exact Nat.lt_irrefl _ (hlt (.inl hstart))
  | cannotStop r hr => exact absurd rfl (hr c)

/-- **Completions are one-shot, and come in time.**  After any run of operations, with any coordinator and
listeners:

* a start that is asked for gives what the first verdict over it says: the phase that was entered first, or
  nothing if before that it was given up, asked for anew, or the worker was gone;
* a stop that is asked for gives the end that was entered first, or nothing if before that it was asked for
  anew or the worker was gone;
* no completion gave two phases, or gave one and has another;
* what completes a stop is the entry of an end, and at no point of it is the stop completed before the
  coordinator was told and the region is pristine;
* once the worker is gone, nobody waits for anything. -/
theorem completions_one_shot (io : Handle) (memory : Memory) (around : κ) (before : List Op) :
    let s := final (act S) before (.new io memory around)
    (∀ c s', s.act S .armStart = (.armed (.ok c), s') → ∀ after,
      Gave (firstVerdict startVerdict after (outputs (act S) after s'))
        ((final (act S) after s').transport.completions.look c)
        (received c after (outputs (act S) after s'))) ∧
    (∀ c s', s.act S .requestStop = (.stopping (.ok (some c)), s') → ∀ after,
      Gave (firstVerdict stopVerdict after (outputs (act S) after s'))
        ((final (act S) after s').transport.completions.look c)
        (received c after (outputs (act S) after s'))) ∧
    (∀ c, (received c before (outputs (act S) before (.new io memory around)) ++
      (s.transport.completions.look c).phases).length ≤ 1) ∧
    (∀ c op p, s.transport.stopSignal = some c →
      (s.act S op).2.transport.completions.look c = .resolved p →
      op = .change p ∧ p.isEnded = true ∧ (s.act S op).2 = (script p).foldl (perform S p) s ∧
      ∀ done, done <+: script p →
        (done.foldl (perform S p) s).transport.completions.look c ≠ .opened →
        .tell ∈ done ∧ (done.foldl (perform S p) s).region.isPristine = true) ∧
    (.disconnect ∈ before →
      s.transport.startSignal = none ∧ s.transport.stopSignal = none ∧
      ∀ c, s.transport.completions.look c ≠ .opened) := by
  intro s
  have hproper : Proper s.transport := proper_final S (Proper.new io) before
  refine ⟨?_, ?_, ?_, ?_, ?_⟩
  · intro c s' harm after
    have hs' : Proper s'.transport := by
      have hnext := hproper.step (act_cases S .armStart s)
      rwa [harm] at hnext
    exact gave_of_awaited S (fun t c h => h.opened) AwaitsStart.step
      (awaitsStart_of_armed S hproper harm) hs' after
  · intro c s' hstop after
    have hs' : Proper s'.transport := by
      have hnext := hproper.step (act_cases S .requestStop s)
      rwa [hstop] at hnext
    exact gave_of_awaited S (fun t c h => h.opened) AwaitsStop.step
      (awaitsStop_of_stopping S hproper hstop) hs' after
  · exact fun c => length_received_le S (Proper.new io) c before
  · intro c op p hsignal hresolved
    have hawaits : AwaitsStop s.transport c :=
      ⟨hsignal, hproper.stop_open c hsignal, fun hstart => hproper.apart c hstart hsignal⟩
    obtain ⟨rfl, hp⟩ := change_of_stopped S hawaits hproper hresolved
    exact ⟨rfl, hp, change_eq_script S p s, fun done hdone => tell_mem_of_stopped S hawaits hdone⟩
  · intro hmem
    have hgone := disconnected_of_mem S (s := .new io memory around) (.inr hmem)
    obtain ⟨hstart, hstop⟩ := hproper.alone hgone
    refine ⟨hstart, hstop, fun c hc => ?_⟩
    rcases hproper.awaited c hc with h | h
    · rw [hstart] at h
      cases h
    · rw [hstop] at h
      cases h

/-- A coordinator that fails, and says in the region that something is performed. -/
def meddler : Surroundings Unit where
  announce _ u memory := (u, memory)
  configure _ u memory := (false, u, memory)
  follow _ u memory := (false, u, memory.modifyRegion 0 fun r => r.set .performing 1)

/-- A performance that was started and told to stop, and whose worker may be gone then. -/
theorem completions_one_shot_meddler :
    let memory := (Memory.allocIo {} 4 1).2
    let s := final (act meddler) [.change .realtimeStarted, .requestStop] (.new ⟨0, 0⟩ memory ())
    let armed := (s.act meddler .armStart).2
    let stopping := (s.act meddler .requestStop).2
    s.act meddler .armStart = (.armed (.ok 1), armed) ∧
    Gave (.resolved .realtimeEnded)
      ((final (act meddler) [.pause, .change .realtimeEnded, .take 1] armed).transport.completions.look 1)
      (received 1 [.pause, .change .realtimeEnded, .take 1]
        (outputs (act meddler) [.pause, .change .realtimeEnded, .take 1] armed)) ∧
    s.act meddler .requestStop = (.stopping (.ok (some 1)), stopping) ∧
    Gave (.resolved .realtimeEnded)
      ((final (act meddler) [.change .realtimeEnded] stopping).transport.completions.look 1)
      (received 1 [.change .realtimeEnded]
        (outputs (act meddler) [.change .realtimeEnded] stopping)) ∧
    s.transport.stopSignal = some 0 ∧
    (s.change meddler .realtimeEnded).transport.completions.look 0 = .resolved .realtimeEnded ∧
    (((script .realtimeEnded).take 6).foldl (perform meddler .realtimeEnded) s).region.isPristine = true ∧
    (final (act meddler) [.change .realtimeStarted, .requestStop, .disconnect]
      (.new ⟨0, 0⟩ memory ())).transport.stopSignal = none := by
  intro memory s armed stopping
  obtain ⟨hstart, hstop, -, htimed, -⟩ := completions_one_shot meddler ⟨0, 0⟩ memory ()
    [.change .realtimeStarted, .requestStop]
  obtain ⟨-, -, -, -, hgone⟩ := completions_one_shot meddler ⟨0, 0⟩ memory ()
    [.change .realtimeStarted, .requestStop, .disconnect]
  have harmed : s.act meddler .armStart = (.armed (.ok 1), armed) := rfl
  have hstopping : s.act meddler .requestStop = (.stopping (.ok (some 1)), stopping) := rfl
  have hresolved :
      (s.change meddler .realtimeEnded).transport.completions.look 0 = .resolved .realtimeEnded := rfl
  obtain ⟨-, -, -, hdone⟩ := htimed 0 (.change .realtimeEnded) .realtimeEnded rfl hresolved
  refine ⟨harmed, hstart 1 armed harmed [.pause, .change .realtimeEnded, .take 1], hstopping,
    hstop 1 stopping hstopping [.change .realtimeEnded], rfl, hresolved, ?_, ?_⟩
  · exact (hdone _ (List.take_prefix _ _) (by decide)).2
  · exact (hgone (by decide)).2.1

end Stage
end SynthControl
