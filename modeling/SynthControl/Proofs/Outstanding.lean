import SynthControl.Proofs.OneShot

/-!
# Stops that are outstanding

A performance can be stopped until its end has been taken note of, and by several callers.  Each of them is
handed a completion of its own, but only the youngest of these is waited for: a caller that is overtaken finds
its completion closed, as if the worker were gone.

* `Output.outstanding`, `outstanding` — the stops that were accepted since the last end, oldest first, by what
  the operations put out;
* `outstanding_cases` — what an operation makes of them, and its verdict over the one that is waited for;
* `Kept`, `Kept.step`, `Kept.run` — **of the outstanding stops the youngest is waited for, and the others are
  closed**, by induction on the run;
* `all_told_iff` — **every outstanding stop is told of the end exactly if there is at most one**, and the worker
  is still there.
-/

namespace SynthControl

namespace Transport

/-- The stops that are outstanding when an operation has put something out: a stop that is accepted joins them,
and an end settles them all. -/
def Output.outstanding (cs : List Nat) : Output → List Nat
  | .stopping (.ok (some c)) => cs ++ [c]
  | .entered (some p) => if p.isEnded then [] else cs
  | _ => cs

/-- The stops that are outstanding after a run, oldest first. -/
def outstanding (outs : List Output) : List Nat := outs.foldl Output.outstanding []

section

variable {t t' : Transport} {op : Op} {o : Output} {cs : List Nat}

/-- The worker is gone after an operation exactly if it was gone before, or the operation says so. -/
theorem Acted.disconnected_iff (ha : Acted t op o t') :
    t'.disconnected = true ↔ t.disconnected = true ∨ op = .disconnect := by
  have hframe := fun p => (t.enter_frame p).2.1
  cases ha with
  | disconnects => exact ⟨fun _ => .inr rfl, fun _ => rfl⟩
  | _ => simp [hframe]

/-- An operation leaves the outstanding stops alone, settles them, adds one to them, or says that the worker is
gone. -/
theorem outstanding_cases (ha : Acted t op o t') (cs : List Nat) :
    (stopVerdict op o = none ∧ o.outstanding cs = cs) ∨
    ((∃ p, stopVerdict op o = some (.resolved p)) ∧ o.stop? = none ∧ o.outstanding cs = []) ∨
    (∃ c, stopVerdict op o = some .closed ∧ o.stop? = some c ∧ o.outstanding cs = cs ++ [c]) ∨
    (stopVerdict op o = some .closed ∧ op = .disconnect ∧ o.outstanding cs = cs) := by
  cases ha with
  | changes p =>
    by_cases hp : p.isEnded = true
    · exact .inr (.inl ⟨⟨p, by simp [stopVerdict, hp]⟩, rfl, by simp [Output.outstanding, hp]⟩)
    · exact .inl ⟨by simp [stopVerdict, hp], by simp [Output.outstanding, hp]⟩
  | stops hd => exact .inr (.inr (.inl ⟨_, rfl, rfl, rfl⟩))
  | disconnects => exact .inr (.inr (.inr ⟨rfl, rfl, rfl⟩))
  | cannotStop r hr =>
    cases r with
    | error e => exact .inl ⟨rfl, rfl⟩
    | ok i =>
      cases i with
      | none => exact .inl ⟨rfl, rfl⟩
      | some i => exact absurd rfl (hr i)
  | _ => exact .inl ⟨rfl, rfl⟩

/-- Of the outstanding stops the youngest is waited for as long as the worker is there, and the others are
closed. -/
structure Kept (t : Transport) (cs : List Nat) : Prop where
  signal : t.disconnected = false → t.stopSignal = cs.getLast?
  settled : ∀ c ∈ cs, t.stopSignal ≠ some c → Settled t c .closed
  ordered : cs.Pairwise (· < ·)

theorem Kept.new (io : Handle) : Kept { io := io } [] :=
  ⟨fun _ => rfl, fun _ hc => absurd hc List.not_mem_nil, .nil⟩

/-- A stop that is outstanding was handed out. -/
theorem Kept.lt_size (h : Kept t cs) (hb : Proper t) {c : Nat} (hc : c ∈ cs) : c < t.completions.size := by
  by_cases hs : t.stopSignal = some c
  · exact hb.lt_size (.inr hs)
  · exact (h.settled c hc hs).issued

theorem Kept.keep (h : Kept t cs) (ha : Acted t op o t') (hv : stopVerdict op o = none) : Kept t' cs := by
  have heffect := ha.effect
  have hnone : o.stop? = none := by
    by_contra hne
    exact heffect.stop_replaced hne hv
  have hsignal : t'.stopSignal = t.stopSignal := by
    rw [heffect.stop_eq, if_neg (not_not.2 hnone), if_neg (not_not.2 hv)]
  refine ⟨fun hd => ?_, fun c hc hs => ?_, h.ordered⟩
  · have hd' : t.disconnected = false := by
      by_contra ht
      rw [ha.disconnected_iff.2 (.inl (by simpa using ht))] at hd
      cases hd
    rw [hsignal, h.signal hd']
  · have hnext := (h.settled c hc (hsignal ▸ hs)).step nofun ha
    rwa [ite_self] at hnext

/-- A stop that comes later closes those that are outstanding, and so does the loss of the worker. -/
theorem Kept.close (h : Kept t cs) (hb : Proper t) (ha : Acted t op o t')
    (hv : stopVerdict op o = some .closed) : ∀ c ∈ cs, Settled t' c .closed := by
  intro c hc
  by_cases hs : t.stopSignal = some c
  · have hawaits : AwaitsStop t c := ⟨hs, hb.stop_open c hs, fun hstart => hb.apart c hstart hs⟩
    have hnext := hawaits.step hb ha
    rw [hv] at hnext
    exact hnext.2
  · have hnext := (h.settled c hc hs).step nofun ha
    rwa [ite_self] at hnext

/-- **After every operation the youngest of the outstanding stops is waited for, and the others are closed.** -/
theorem Kept.step (h : Kept t cs) (hb : Proper t) (ha : Acted t op o t') : Kept t' (o.outstanding cs) := by
  have heffect := ha.effect
  rcases outstanding_cases ha cs with ⟨hv, ho⟩ | ⟨⟨p, hv⟩, hnone, ho⟩ | ⟨c, hv, hc, ho⟩ | ⟨hv, hop, ho⟩
  · rw [ho]
    exact h.keep ha hv
  · rw [ho]
    refine ⟨fun _ => ?_, nofun, .nil⟩
    rw [heffect.stop_eq, hnone, hv]
    simp
  · have hsignal : t'.stopSignal = some c := by
      rw [heffect.stop_eq, hc]
      simp
    have hfresh := (heffect.fresh c (.inr hc)).1
    rw [ho]
    refine ⟨fun _ => ?_, fun i hi hs => ?_, ?_⟩
    · rw [hsignal, List.getLast?_concat]
    · rcases List.mem_append.1 hi with hi | hi
      · exact h.close hb ha hv i hi
      · rw [List.mem_singleton.1 hi] at hs
        exact absurd hsignal hs
    · refine List.pairwise_append.2 ⟨h.ordered, List.pairwise_singleton _ _, fun i hi j hj => ?_⟩
      rw [List.mem_singleton.1 hj, hfresh]
      exact h.lt_size hb hi
  · rw [ho]
    refine ⟨fun hd => ?_, fun c hc _ => h.close hb ha hv c hc, h.ordered⟩
    rw [ha.disconnected_iff.2 (.inr hop)] at hd
    cases hd

/-- The one that is waited for is the youngest, if the worker is there. -/
theorem Kept.signal_iff (h : Kept t cs) (hb : Proper t) {c : Nat} :
    t.stopSignal = some c ↔ cs.getLast? = some c ∧ t.disconnected = false := by
  cases hd : t.disconnected with
  | false => simp [h.signal hd]
  | true => simp [(hb.alone hd).2]

/-- Only one of them can be the youngest. -/
theorem Kept.all_youngest_iff (h : Kept t cs) :
    (∀ c ∈ cs, cs.getLast? = some c) ↔ cs = [] ∨ cs.length = 1 := by
  have hordered := h.ordered
  match cs with
  | [] => simp
  | [c] => simp
  | a :: b :: cs =>
    have hab : a < b := (List.pairwise_cons.1 hordered).1 b List.mem_cons_self
    constructor
    · intro hall
      have ha := hall a List.mem_cons_self
      have hb := hall b (List.mem_cons_of_mem _ List.mem_cons_self)
      rw [ha] at hb
      exact absurd (Option.some.inj hb) (Nat.ne_of_lt hab)
    · simp

end
end Transport

namespace Stage

open Transport

variable {κ : Type} (S : Surroundings κ)

theorem Kept.run {s : Stage κ} {cs : List Nat} (h : Kept s.transport cs) (hb : Proper s.transport)
    (ops : List Op) :
    Kept (final (act S) ops s).transport ((outputs (act S) ops s).foldl Output.outstanding cs) := by
  induction ops generalizing s cs with
  | nil => exact h
  | cons op ops ih =>
    have hacted := act_cases S op s
    exact ih (h.step hb hacted) (hb.step hacted)

/-- The worker is gone exactly if it was gone before, or an operation of the run says so. -/
theorem disconnected_final_iff (ops : List Op) (s : Stage κ) :
    (final (act S) ops s).transport.disconnected = true ↔
      s.transport.disconnected = true ∨ .disconnect ∈ ops := by
  induction ops generalizing s with
  | nil => simp [final]
  | cons op ops ih =>
    have hstep := (act_cases S op s).disconnected_iff
    calc (final (act S) ops (s.act S op).2).transport.disconnected = true
        ↔ (s.act S op).2.transport.disconnected = true ∨ .disconnect ∈ ops := ih _
      _ ↔ (s.transport.disconnected = true ∨ op = .disconnect) ∨ .disconnect ∈ ops := by rw [hstep]
      _ ↔ s.transport.disconnected = true ∨ .disconnect ∈ op :: ops := by
        rw [or_assoc, List.mem_cons, eq_comm (a := op)]

/-- An end completes the stop that is waited for. -/
theorem look_change_of_isEnded {p : PlayState} (hp : p.isEnded = true) {s : Stage κ}
    (hb : Proper s.transport) {c : Nat} (hs : s.transport.stopSignal = some c) :
    (s.change S p).transport.completions.look c = .resolved p := by
  rw [change_transport, Transport.look_enter]
  exact if_pos ⟨.inr ⟨hp, hs⟩, hb.stop_open c hs⟩

/-- What is settled stays so when a phase is entered. -/
theorem look_change_of_settled (p : PlayState) {s : Stage κ} {c : Nat} {k : Completion}
    (h : Settled s.transport c k) : (s.change S p).transport.completions.look c = k := by
  rw [change_transport, Transport.look_enter]
  rw [if_neg fun hc => hc.1.elim h.not_start fun hs => h.not_stop hs.2]
  exact h.look_eq

/-- **Who of several that stop a performance is told of its end.**  After any run of operations, with any
coordinator and listeners, let `cs` be the stops that were accepted since the last end, oldest first, and let
the next end be entered:

* they are all told of it exactly if there is none of them, or one and the worker is there;
* the one that is told is the youngest, if the worker is there;
* every other was closed before already, whether the worker is there or not. -/
theorem all_told_iff (io : Handle) (memory : Memory) (around : κ) (ops : List Op) {p : PlayState}
    (hp : p.isEnded = true) :
    let s := final (act S) ops (.new io memory around)
    let cs := outstanding (outputs (act S) ops (.new io memory around))
    ((∀ c ∈ cs, (s.change S p).transport.completions.look c = .resolved p) ↔
      cs = [] ∨ (cs.length = 1 ∧ .disconnect ∉ ops)) ∧
    (∀ c ∈ cs, (s.change S p).transport.completions.look c = .resolved p ↔
      cs.getLast? = some c ∧ .disconnect ∉ ops) ∧
    (∀ c ∈ cs, cs.getLast? ≠ some c → s.transport.completions.look c = .closed) := by
  intro s cs
  have hproper : Proper s.transport := proper_final S (Proper.new io) ops
  have hkept : Kept s.transport cs :=
    Kept.run S (Kept.new io) (Proper.new io) ops
  have hthere : s.transport.disconnected = false ↔ .disconnect ∉ ops := by
    have hgone := disconnected_final_iff S ops (.new io memory around)
    rw [← Bool.not_eq_true, hgone]
    simp [Stage.new]
  have hwaited (c : Nat) : s.transport.stopSignal = some c ↔ cs.getLast? = some c ∧ .disconnect ∉ ops := by
    rw [hkept.signal_iff hproper, hthere]
  have htold (c : Nat) (hc : c ∈ cs) :
      (s.change S p).transport.completions.look c = .resolved p ↔
        cs.getLast? = some c ∧ .disconnect ∉ ops := by
    rw [← hwaited]
    by_cases hs : s.transport.stopSignal = some c
    · exact iff_of_true (look_change_of_isEnded S hp hproper hs) hs
    · rw [look_change_of_settled S p (hkept.settled c hc hs)]
      exact iff_of_false nofun hs
  refine ⟨?_, htold, fun c hc hlast => ?_⟩
  · calc (∀ c ∈ cs, (s.change S p).transport.completions.look c = .resolved p)
        ↔ ∀ c ∈ cs, cs.getLast? = some c ∧ .disconnect ∉ ops := forall₂_congr htold
      _ ↔ cs = [] ∨ (cs.length = 1 ∧ .disconnect ∉ ops) := by
        by_cases hd : .disconnect ∈ ops
        · simp [hd, List.eq_nil_iff_forall_not_mem]
        · simp [hd, hkept.all_youngest_iff]
  · exact (hkept.settled c hc fun hs => hlast ((hwaited c).1 hs).1).look_eq

/-- The second of two callers that stop a performance takes the place of the first: the first finds its
completion closed while the worker is there and the performance still runs, and the second is told of the
end. -/
theorem all_told_iff_overtaken :
    let memory := (Memory.allocIo {} 4 1).2
    let ops : List Op := [.change .realtimeStarted, .requestStop, .requestStop]
    let s := final (act meddler) ops (.new ⟨0, 0⟩ memory ())
    outstanding (outputs (act meddler) ops (.new ⟨0, 0⟩ memory ())) = [0, 1] ∧
    s.transport.completions.look 0 = .closed ∧ s.transport.disconnected = false ∧
    (s.change meddler .realtimeEnded).transport.completions.look 1 = .resolved .realtimeEnded ∧
    ¬∀ c ∈ [0, 1], (s.change meddler .realtimeEnded).transport.completions.look c = .resolved .realtimeEnded := by
  intro memory ops s
  have houtstanding : outstanding (outputs (act meddler) ops (.new ⟨0, 0⟩ memory ())) = [0, 1] := rfl
  obtain ⟨hall, htold, hclosed⟩ := all_told_iff meddler ⟨0, 0⟩ memory () ops (p := .realtimeEnded) rfl
  rw [houtstanding] at hall htold hclosed
  have hthere : .disconnect ∉ ops := by decide
  refine ⟨houtstanding, hclosed 0 (by decide) (by decide), rfl, (htold 1 (by decide)).2 ⟨rfl, hthere⟩, ?_⟩
  rw [hall]
  decide

end Stage
end SynthControl
