import SynthControl.Proofs.OneShot

/-!
# Faults of the coordinator make no difference

The transport tells its surroundings of every phase, and they may fail.  Nothing that the transport does
depends on that: what its surroundings write into the memory is all that comes back from them.

* `Call`, `Surroundings.call` — what the transport tells its surroundings, and what comes of it;
* `Surroundings.SameWrites` — two surroundings write the same, whichever of their calls fail;
* `Surroundings.recorded` — the surroundings, which also note every call;
* `Stage.Turn`, `Stage.watch` — an operation of the transport, or anything that others do to the memory;
* `Alike`, `Alike.watch` — two runs that differ in faults alone, and **what every turn keeps**;
* `Call.due`, `due_watch` — the calls that a phase is due, and **every turn makes these**;
* `faults_invisible` — both, for runs of any length.
-/

namespace SynthControl

/-! ### Calls -/

/-- What the transport tells its surroundings. -/
inductive Call where
  /-- The listeners hear of a phase. -/
  | announce (p : PlayState)
  /-- The coordinator is given the parameters of a realtime performance. -/
  | configure (ps : Parameters)
  /-- The coordinator is told of a phase. -/
  | follow (p : PlayState)
  deriving DecidableEq

namespace Surroundings

variable {κ κ' : Type}

/-- Make a call: whether it succeeds, and what it leaves.  Listeners cannot fail. -/
def call (S : Surroundings κ) : Call → κ → Memory → Bool × κ × Memory
  | .announce p, k, m => (true, S.announce p k m)
  | .configure ps, k, m => S.configure ps k m
  | .follow p, k, m => S.follow p k m

/-- The surroundings after some calls, each made on a memory. -/
def after (S : Surroundings κ) (past : List (Call × Memory)) (k : κ) : κ :=
  past.foldl (fun k c => (S.call c.1 k c.2).2.1) k

/-- Whatever was called before, every call writes the same, though it may fail in one of the surroundings and
succeed in the other. -/
def SameWrites (S : Surroundings κ) (k : κ) (S' : Surroundings κ') (k' : κ') : Prop :=
  ∀ past c m, (S.call c (S.after past k) m).2.2 = (S'.call c (S'.after past k') m).2.2

theorem SameWrites.call {S : Surroundings κ} {S' : Surroundings κ'} {k : κ} {k' : κ'}
    (h : S.SameWrites k S' k') (c : Call) (m : Memory) :
    S.SameWrites (S.call c k m).2.1 S' (S'.call c k' m).2.1 :=
  fun past => h ((c, m) :: past)

/-- A call that was made: on which memory, and whether it succeeded. -/
structure Entry where
  call : Call
  shown : Memory
  succeeded : Bool

/-- Make a call and note it. -/
def note (S : Surroundings κ) (c : Call) (k : κ × List Entry) (m : Memory) :
    Bool × (κ × List Entry) × Memory :=
  let (succeeded, around, memory) := S.call c k.1 m
  (succeeded, (around, k.2 ++ [⟨c, m, succeeded⟩]), memory)

/-- The same surroundings, which also note every call. -/
def recorded (S : Surroundings κ) : Surroundings (κ × List Entry) where
  announce p k m := (S.note (.announce p) k m).2
  configure ps k m := S.note (.configure ps) k m
  follow p k m := S.note (.follow p) k m

theorem call_recorded (S : Surroundings κ) (c : Call) (k : κ × List Entry) (m : Memory) :
    S.recorded.call c k m = S.note c k m := by
  cases c <;> rfl

/-- To note the calls disturbs nobody. -/
theorem sameWrites_recorded (S : Surroundings κ) (k : κ) (log : List Entry) :
    S.SameWrites k S.recorded (k, log) := by
  intro past
  induction past generalizing k log with
  | nil =>
    intro c m
    show _ = (S.recorded.call c (k, log) m).2.2
    rw [call_recorded]
    rfl
  | cons a past ih =>
    intro c m
    have hnoted := ih (S.call a.1 k a.2).2.1 (log ++ [⟨a.1, a.2, (S.call a.1 k a.2).1⟩]) c m
    show _ = (S.recorded.call c (S.recorded.after past (S.recorded.call a.1 (k, log) a.2).2.1) m).2.2
    rw [call_recorded S a.1]
    exact hnoted

end Surroundings

/-! ### Runs -/

/-- The phase that an operation entered, if it did. -/
def Transport.Output.phase? : Output → Option PlayState
  | .entered p => p
  | _ => none

namespace Stage

variable {κ κ' : Type}

/-- What happens next: an operation of the transport, or anything that others do to the memory meanwhile. -/
inductive Turn where
  | own (op : Transport.Op)
  | others (f : Memory → Memory)

/-- A turn, and what it puts out. -/
def turn (S : Surroundings κ) : Turn → Stage κ → Transport.Output × Stage κ
  | .own op, s => s.act S op
  | .others f, s => (.done, { s with memory := f s.memory })

/-- A turn, and all that it shows: what it puts out, the transport with its phase and its completions, and the
memory with every region. -/
def watch (S : Surroundings κ) (a : Turn) (s : Stage κ) :
    (Transport.Output × Transport × Memory) × Stage κ :=
  (((s.turn S a).1, (s.turn S a).2.transport, (s.turn S a).2.memory), (s.turn S a).2)

/-- The phases that a run entered, one after another. -/
def phases (shown : List (Transport.Output × Transport × Memory)) : List PlayState :=
  shown.filterMap fun o => o.1.phase?

/-- The surroundings hear of a call. -/
def tell (S : Surroundings κ) (c : Call) (s : Stage κ) : Stage κ :=
  { s with around := (S.call c s.around s.memory).2.1, memory := (S.call c s.around s.memory).2.2 }

theorem configure_eq_tell (S : Surroundings κ) (s : Stage κ) :
    s.configure S = s.tell S (.configure (.ofRegion s.region s.transport.io)) := rfl

/-! ### Two runs -/

/-- Two stages show the same and were told the same, and their surroundings will write the same. -/
structure Alike (S : Surroundings κ) (S' : Surroundings κ')
    (s : Stage (κ × List Surroundings.Entry)) (s' : Stage (κ' × List Surroundings.Entry)) : Prop where
  transport_eq : s.transport = s'.transport
  memory_eq : s.memory = s'.memory
  same : S.SameWrites s.around.1 S' s'.around.1
  told_eq : (s.around.2.map fun e => (e.call, e.shown)) = s'.around.2.map fun e => (e.call, e.shown)

namespace Alike

variable {S : Surroundings κ} {S' : Surroundings κ'} {s : Stage (κ × List Surroundings.Entry)}
  {s' : Stage (κ' × List Surroundings.Entry)}

/-- A change of transport and memory that takes no notice of the surroundings. -/
theorem change (h : Alike S S' s s') {f : Transport → Memory → Transport} {g : Transport → Memory → Memory} :
    Alike S S' { s with transport := f s.transport s.memory, memory := g s.transport s.memory }
      { s' with transport := f s'.transport s'.memory, memory := g s'.transport s'.memory } :=
  ⟨by rw [h.transport_eq, h.memory_eq], by rw [h.transport_eq, h.memory_eq], h.same, h.told_eq⟩

theorem region_eq (h : Alike S S' s s') : s.region = s'.region := by
  rw [region, region, h.transport_eq, h.memory_eq]

/-- **A call makes no difference, whether it succeeds or not.** -/
theorem tell (h : Alike S S' s s') (c : Call) :
    Alike S S' (s.tell S.recorded c) (s'.tell S'.recorded c) := by
  have hwrites := h.same [] c s.memory
  rw [Stage.tell, Stage.tell, Surroundings.call_recorded, Surroundings.call_recorded, ← h.memory_eq]
  refine ⟨h.transport_eq, hwrites, h.same.call c s.memory, ?_⟩
  show ((s.around.2 ++ [_]).map _) = ((s'.around.2 ++ [_]).map _)
  rw [List.map_append, List.map_append, h.told_eq]
  rfl

/-- A single act of the entry of a phase makes none. -/
theorem perform (h : Alike S S' s s') (p : PlayState) (a : Act) :
    Alike S S' (s.perform S.recorded p a) (s'.perform S'.recorded p a) := by
  cases a with
  | enter => exact h.change (f := fun t _ => { t with current := p }) (g := fun _ m => m)
  | configure =>
    rw [Stage.perform, Stage.perform, configure_eq_tell, configure_eq_tell, h.region_eq, h.transport_eq]
    exact h.tell _
  | reset =>
    exact h.change (f := fun t _ => t) (g := fun t m => m.modifyRegion t.io.region Region.reset)
  | announce => exact h.tell (.announce p)
  | tell => exact h.tell (.follow p)
  | completeStop => exact h.change (f := fun t _ => t.resolveStop p) (g := fun _ m => m)
  | completeStart => exact h.change (f := fun t _ => t.resolveStart p) (g := fun _ m => m)

/-- The entry of a phase makes none. -/
theorem enter (h : Alike S S' s s') (p : PlayState) :
    Alike S S' (s.change S.recorded p) (s'.change S'.recorded p) := by
  rw [change_eq_script, change_eq_script]
  generalize script p = acts
  induction acts generalizing s s' with
  | nil => exact h
  | cons a acts ih => exact ih (h.perform p a)

/-- A pause or a resumption, once the region allows it. -/
theorem switch (h : Alike S S' s s') (f : Region → Region) (p : PlayState) :
    Alike S S' ((s.onRegion f).change S.recorded p) ((s'.onRegion f).change S'.recorded p) :=
  enter (h.change (f := fun t _ => t) (g := fun t m => m.modifyRegion t.io.region f)) p

/-- **No operation makes a difference.** -/
theorem act (h : Alike S S' s s') (op : Transport.Op) :
    (s.act S.recorded op).1 = (s'.act S'.recorded op).1 ∧
      Alike S S' (s.act S.recorded op).2 (s'.act S'.recorded op).2 := by
  have htransport := h.transport_eq
  cases op with
  | armStart =>
    refine ⟨?_, h.change (f := fun t _ => t.armStart.2) (g := fun _ m => m)⟩
    rw [Stage.act, Stage.act, htransport]
  | dropStart => exact ⟨rfl, h.change (f := fun t _ => t.dropStart) (g := fun _ m => m)⟩
  | change p => exact ⟨rfl, h.enter p⟩
  | pause =>
    rw [Stage.act, Stage.act, pause, pause, h.region_eq]
    split
    · exact ⟨rfl, h.switch _ _⟩
    · exact ⟨rfl, h⟩
  | resume =>
    rw [Stage.act, Stage.act, resume, resume, h.region_eq]
    split
    · exact ⟨rfl, h.switch _ _⟩
    · exact ⟨rfl, h⟩
  | requestStop =>
    obtain ⟨t, m, k⟩ := s
    obtain ⟨t', m', k'⟩ := s'
    obtain rfl : t = t' := htransport
    obtain rfl : m = m' := h.memory_eq
    rw [Stage.act, Stage.act, requestStop, requestStop]
    split
    · exact ⟨rfl, h⟩
    · split
      · exact ⟨rfl, h⟩
      · exact ⟨rfl, rfl, rfl, h.same, h.told_eq⟩
  | replaceRegion =>
    exact ⟨rfl, h.change (f := fun t m => { t with io := { t.io with region := m.allocRegion.1 } })
      (g := fun _ m => m.allocRegion.2)⟩
  | disconnect => exact ⟨rfl, h.change (f := fun t _ => t.disconnect) (g := fun _ m => m)⟩
  | take c =>
    refine ⟨?_, h.change (f := fun t _ => { t with completions := (t.completions.take c).2 })
      (g := fun _ m => m)⟩
    rw [Stage.act, Stage.act, htransport]

/-- **No turn makes a difference.** -/
theorem watch (h : Alike S S' s s') (a : Turn) :
    (s.watch S.recorded a).1 = (s'.watch S'.recorded a).1 ∧
      Alike S S' (s.watch S.recorded a).2 (s'.watch S'.recorded a).2 := by
  cases a with
  | own op =>
    obtain ⟨hout, hkept⟩ := h.act op
    exact ⟨Prod.ext hout (Prod.ext hkept.transport_eq hkept.memory_eq), hkept⟩
  | others f =>
    have hkept := h.change (f := fun t _ => t) (g := fun _ m => f m)
    exact ⟨Prod.ext rfl (Prod.ext hkept.transport_eq hkept.memory_eq), hkept⟩

end Alike

/-! ### What a phase is due -/

/-- The calls that the entry of a phase is due: a configuration when a realtime performance begins, an
announcement unless nothing is performed, and then the phase is forwarded. -/
def due (p : PlayState) (ps : Parameters) : List Call :=
  (if p = .realtimeStarted then [.configure ps] else []) ++
    (if p = .stopped then [] else [.announce p]) ++ [.follow p]

/-- A configuration passes on what its region shows. -/
def Candid (m : Memory) (c : Call) : Prop :=
  ∀ ps, c = .configure ps → ps = .ofRegion (m.region ps.io.region) ps.io

/-- These calls were noted, and they are candid. -/
def Notes (log log' : List Surroundings.Entry) (calls : List Call) : Prop :=
  ∃ made : List Surroundings.Entry, log' = log ++ made ∧ (made.map fun e => e.call) = calls ∧
    ∀ e ∈ made, Candid e.shown e.call

namespace Notes

variable {log log' log'' : List Surroundings.Entry} {calls calls' : List Call}

theorem refl (log : List Surroundings.Entry) : Notes log log [] := ⟨[], by simp, rfl, by simp⟩

theorem trans (h : Notes log log' calls) (h' : Notes log' log'' calls') :
    Notes log log'' (calls ++ calls') := by
  obtain ⟨made, rfl, rfl, hcandid⟩ := h
  obtain ⟨made', rfl, rfl, hcandid'⟩ := h'
  refine ⟨made ++ made', List.append_assoc _ _ _, List.map_append, fun e he => ?_⟩
  rcases List.mem_append.1 he with he | he
  · exact hcandid e he
  · exact hcandid' e he

variable (S : Surroundings κ) (s : Stage (κ × List Surroundings.Entry))

theorem tell (c : Call) (hc : Candid s.memory c) :
    Notes s.around.2 (s.tell S.recorded c).around.2 [c] := by
  rw [Stage.tell, Surroundings.call_recorded]
  exact ⟨[⟨c, s.memory, (S.call c s.around.1 s.memory).1⟩], rfl, rfl, by simpa using hc⟩

/-- What comes before a phase is forwarded. -/
theorem prepare (p : PlayState) :
    Notes s.around.2 (s.prepare S.recorded p).around.2
      ((if p = .realtimeStarted then [.configure (.ofRegion s.region s.transport.io)] else []) ++
        (if p = .stopped then [] else [.announce p])) := by
  have hannounced : ∀ s : Stage (κ × List Surroundings.Entry),
      Notes s.around.2 (s.announce S.recorded p).around.2 [.announce p] :=
    fun s => tell S s (.announce p) fun _ h => Call.noConfusion h
  cases p with
  | realtimeStarted =>
    have hconfigured : Notes s.around.2 (s.configure S.recorded).around.2
        [.configure (.ofRegion s.region s.transport.io)] :=
      tell S s (.configure (.ofRegion s.region s.transport.io)) fun ps hps => by cases hps; rfl
    exact hconfigured.trans (hannounced _)
  | realtimeEnded | renderEnded => exact hannounced (s.onRegion Region.reset)
  | realtimePaused | realtimeResumed | renderStarted => exact hannounced s
  | stopped => exact refl _

/-- **The entry of a phase makes the calls that it is due.** -/
theorem change (p : PlayState) :
    Notes s.around.2 (s.change S.recorded p).around.2 (due p (.ofRegion s.region s.transport.io)) := by
  have hbefore := prepare S { s with transport := { s.transport with current := p } } p
  have hforwarded := tell S (Stage.prepare S.recorded p { s with transport := { s.transport with current := p } })
    (.follow p) fun _ h => Call.noConfusion h
  have hcompleted : ∀ s : Stage (κ × List Surroundings.Entry), (s.complete p).around = s.around := by
    intro s
    rw [complete]
    split <;> rfl
  rw [Stage.change, hcompleted]
  exact hbefore.trans hforwarded

end Notes

/-- These phases were entered, and the calls were noted that they are due. -/
def Told (log log' : List Surroundings.Entry) (ps : List PlayState) : Prop :=
  ∃ told : List (PlayState × Parameters),
    told.map Prod.fst = ps ∧ Notes log log' (told.flatMap fun t => due t.1 t.2)

theorem Told.nil (log : List Surroundings.Entry) : Told log log [] := ⟨[], rfl, .refl _⟩

theorem Told.append {log log' log'' : List Surroundings.Entry} {ps ps' : List PlayState}
    (h : Told log log' ps) (h' : Told log' log'' ps') : Told log log'' (ps ++ ps') := by
  obtain ⟨told, rfl, hnotes⟩ := h
  obtain ⟨told', rfl, hnotes'⟩ := h'
  refine ⟨told ++ told', List.map_append, ?_⟩
  rw [List.flatMap_append]
  exact hnotes.trans hnotes'

section

variable (S : Surroundings κ) (s : Stage (κ × List Surroundings.Entry))

theorem told_change (p : PlayState) : Told s.around.2 (s.change S.recorded p).around.2 [p] :=
  ⟨[(p, .ofRegion s.region s.transport.io)], rfl, by simpa using Notes.change S s p⟩

/-- **Every operation makes the calls that the phase is due which it enters.** -/
theorem told_act (op : Transport.Op) :
    Told s.around.2 (s.act S.recorded op).2.around.2 (s.act S.recorded op).1.phase?.toList := by
  cases op with
  | change p => exact told_change S s p
  | pause =>
    rw [act, pause]
    split
    · exact told_change S (s.onRegion fun r => r.set .paused 1) .realtimePaused
    · exact Told.nil _
  | resume =>
    rw [act, resume]
    split
    · exact told_change S (s.onRegion fun r => r.lower .paused) .realtimeResumed
    · exact Told.nil _
  | requestStop =>
    show Told _ s.requestStop.2.around.2 []
    rw [requestStop]
    split
    · exact Told.nil _
    · split <;> exact Told.nil _
  | _ => exact Told.nil _

/-- **Every run makes the calls that the phases are due which it enters, in order.** -/
theorem told_run (turns : List Turn) :
    Told s.around.2 (final (watch S.recorded) turns s).around.2
      (phases (outputs (watch S.recorded) turns s)) := by
  induction turns generalizing s with
  | nil => exact Told.nil _
  | cons a turns ih =>
    have hturn : Told s.around.2 (s.watch S.recorded a).2.around.2
        (s.watch S.recorded a).1.1.phase?.toList := by
      cases a with
      | own op => exact told_act S s op
      | others f => exact Told.nil _
    have hphases : phases (outputs (watch S.recorded) (a :: turns) s) =
        (s.watch S.recorded a).1.1.phase?.toList ++
          phases (outputs (watch S.recorded) turns (s.watch S.recorded a).2) := by
      rw [outputs, phases, phases, List.filterMap_cons]
      cases (s.watch S.recorded a).1.1.phase? <;> rfl
    rw [hphases]
    exact hturn.append (ih _)

end

/-! ### Faults make no difference -/

/-- **Faults of the surroundings make no difference.**  Take any two surroundings that write the same, whichever
of their calls fail, and any run of operations of the transport and of changes that others make to the memory:

* in both all results, phases, completions and regions are the same after every turn, and so are all calls,
  with the memory that each is shown;
* the calls are those that the phases are due which the run enters, one after another, and every configuration
  passes on what the region shows. -/
theorem faults_invisible (S : Surroundings κ) (S' : Surroundings κ') (around : κ) (around' : κ')
    (hsame : S.SameWrites around S' around') (io : Handle) (memory : Memory) (turns : List Turn) :
    let s := Stage.new io memory (around, ([] : List Surroundings.Entry))
    let s' := Stage.new io memory (around', ([] : List Surroundings.Entry))
    let shown := outputs (watch S.recorded) turns s
    let log := (final (watch S.recorded) turns s).around.2
    let log' := (final (watch S'.recorded) turns s').around.2
    shown = outputs (watch S'.recorded) turns s' ∧
      (log.map fun e => (e.call, e.shown)) = (log'.map fun e => (e.call, e.shown)) ∧
      (∃ told : List (PlayState × Parameters), told.map Prod.fst = phases shown ∧
        (log.map fun e => e.call) = told.flatMap fun t => due t.1 t.2) ∧
      ∀ e ∈ log, Candid e.shown e.call := by
  intro s s' shown log log'
  have hbegun : Alike S S' s s' := ⟨rfl, rfl, hsame, rfl⟩
  obtain ⟨hshown, hkept⟩ := outputs_eq_of_simulation (R := Alike S S') (fun a _ _ h => h.watch a) hbegun turns
  obtain ⟨told, htold, made, hlog, hcalls, hcandid⟩ := told_run S s turns
  have hmade : log = made := hlog.trans (List.nil_append made)
  exact ⟨hshown, hkept.told_eq, ⟨told, htold, hmade ▸ hcalls⟩, hmade ▸ hcandid⟩

/-- A coordinator that writes what the meddler writes, and fails every other time. -/
def unreliable : Surroundings Nat where
  announce _ n memory := (n, memory)
  configure _ n memory := (n % 2 == 1, n + 1, memory)
  follow _ n memory := (n % 2 == 1, n + 1, memory.modifyRegion 0 fun r => r.set .performing 1)

/-- A performance that is started, paused and told to stop, with a coordinator that always fails and with one
that fails every other time. -/
theorem faults_invisible_unreliable :
    let memory := (Memory.allocIo {} 4 1).2
    let turns : List Turn :=
      [.own .armStart, .others fun m => m.modifyRegion 0 fun r => r.set .performing 1,
        .own (.change .realtimeStarted), .own .pause, .own .requestStop, .own (.change .realtimeEnded),
        .own (.change .stopped)]
    let s := Stage.new ⟨0, 0⟩ memory ((), ([] : List Surroundings.Entry))
    let s' := Stage.new ⟨0, 0⟩ memory (0, ([] : List Surroundings.Entry))
    let shown := outputs (watch meddler.recorded) turns s
    let log := (final (watch meddler.recorded) turns s).around.2
    let log' := (final (watch unreliable.recorded) turns s').around.2
    meddler.SameWrites () unreliable 0 ∧
      (log.map fun e => e.succeeded) = [false, true, false, true, false, true, false, false] ∧
      (log'.map fun e => e.succeeded) = [false, true, true, true, false, true, true, false] ∧
      phases shown = [.realtimeStarted, .realtimePaused, .realtimeEnded, .stopped] ∧
      shown = outputs (watch unreliable.recorded) turns s' ∧
      (log.map fun e => (e.call, e.shown)) = (log'.map fun e => (e.call, e.shown)) := by
  intro memory turns s s' shown log log'
  have hsame : meddler.SameWrites () unreliable 0 := by
    intro past c m
    cases c <;> rfl
  obtain ⟨hshown, hlog, -, -⟩ :=
    faults_invisible meddler unreliable () 0 hsame ⟨0, 0⟩ memory turns
  refine ⟨hsame, by decide, by decide, by decide, hshown, ?_⟩
  -- the run itself is not to be computed to compare the two logs
  clear_value memory turns
  exact hlog

end Stage
end SynthControl
