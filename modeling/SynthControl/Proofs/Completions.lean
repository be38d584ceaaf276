import SynthControl.Transport

/-!
# What becomes of a completion

Whoever asks for a start or a stop is handed a completion, which may be taken up, given up or resolved by
any of the operations that follow.  Coordinator and listeners are arbitrary: they may fail, and they may write
whatever they like into the memory while they are told of a phase.

* `Transport.Op`, `Stage.act` — the operations, and what each of them puts out;
* `Acted`, `act_cases` — all that an operation can do to the transport;
* `startVerdict`, `stopVerdict` — what a single operation decides over a start or a stop that is waited for;
* `Effect`, `Acted.effect` — **what an operation does to completions and to those who wait for them**, by what
  it hands out and decides;
* `Proper`, `Proper.step` — **the books are kept in order by every operation**;
* `Settled`, `AwaitsStart`, `AwaitsStop` — how it stands with a completion, and **what a step makes of it**.
-/

namespace SynthControl

/-! ### Looking at completions -/

namespace Completions

theorem look_modify (cs : Completions) (f : Completion → Completion) (hf : f .closed = .closed)
    (i j : Nat) : look (cs.modify i f) j = if i = j then f (cs.look j) else cs.look j := by
  unfold look
  rw [Array.getD_eq_getD_getElem?, Array.getD_eq_getD_getElem?, Array.getElem?_modify]
  by_cases hi : i = j
  · rw [if_pos hi, if_pos hi]
    cases cs[j]? with
    | none => exact hf.symm
    | some d => rfl
  · rw [if_neg hi, if_neg hi]

/-- Giving a completion up shows at this one, if it was open. -/
theorem look_drop (cs : Completions) (i j : Nat) :
    (cs.drop i).look j = if i = j ∧ cs.look j = .opened then .closed else cs.look j := by
  rw [drop, look_modify _ _ rfl]
  by_cases hi : i = j
  · cases hl : cs.look j <;> simp [hi]
  · simp [hi]

/-- Taking what resolved a completion shows at this one, if it was resolved. -/
theorem look_take (cs : Completions) (i j : Nat) :
    (cs.take i).2.look j = if i = j ∧ cs.look j ≠ .opened then .closed else cs.look j := by
  show look (cs.modify i _) j = _
  rw [look_modify _ _ rfl]
  by_cases hi : i = j
  · cases hl : cs.look j <;> simp [hi]
  · simp [hi]

/-- Handing a completion out does not show at the others. -/
theorem look_issue_eq (cs : Completions) (j : Nat) :
    cs.issue.2.look j = if j = cs.size then .opened else cs.look j := by
  show look (cs.push .opened) j = _
  unfold look
  rw [Array.getD_eq_getD_getElem?, Array.getD_eq_getD_getElem?, Array.getElem?_push]
  split <;> rfl

theorem lt_size_of_look (cs : Completions) {i : Nat} (h : cs.look i ≠ .closed) : i < cs.size := by
  refine Nat.lt_of_not_le fun hge => h ?_
  rw [look, Array.getD_eq_getD_getElem?, Array.getElem?_eq_none hge]
  rfl

theorem size_issue (cs : Completions) : cs.issue.2.size = cs.size + 1 := by
  show (Array.push cs .opened).size = _
  exact Array.size_push _

@[simp] theorem size_drop (cs : Completions) (i : Nat) : (cs.drop i).size = cs.size :=
  Array.size_modify

@[simp] theorem size_resolve (cs : Completions) (i : Nat) (p : PlayState) :
    (cs.resolve i p).size = cs.size :=
  Array.size_modify

@[simp] theorem size_take (cs : Completions) (i : Nat) : (cs.take i).2.size = cs.size :=
  Array.size_modify

end Completions

/-- The phase that a completion would give to who takes it. -/
def Completion.phases : Completion → List PlayState
  | .resolved p => [p]
  | .opened | .closed => []

/-! ### Operations -/

namespace Transport

/-- An operation on a transport, by the control side or the dispatcher; and a waiter that looks at its
completion, and takes what has resolved it. -/
inductive Op where
  | armStart
  | dropStart
  | change (p : PlayState)
  | pause
  | resume
  | requestStop
  | replaceRegion
  | disconnect
  | take (c : Nat)
  deriving DecidableEq

/-- What an operation puts out. -/
inductive Output where
  | armed (r : Except Error Nat)
  | stopping (r : Except Error (Option Nat))
  /-- The phase that was entered, if one was. -/
  | entered (p : Option PlayState)
  | found (c : Completion)
  | done

end Transport

namespace Stage

variable {κ : Type}

/-- A transport that has just begun, on a region and rings. -/
def new (io : Handle) (memory : Memory) (around : κ) : Stage κ := ⟨{ io := io }, memory, around⟩

/-- Change the transport alone. -/
def onTransport (f : Transport → Transport) (s : Stage κ) : Stage κ :=
  { s with transport := f s.transport }

/-- An operation. -/
def act (S : Surroundings κ) : Transport.Op → Stage κ → Transport.Output × Stage κ
  | .armStart, s => (.armed s.transport.armStart.1, s.onTransport fun t => t.armStart.2)
  | .dropStart, s => (.done, s.onTransport .dropStart)
  | .change p, s => (.entered (some p), s.change S p)
  | .pause, s =>
    (.entered (if (s.pause S).1 then some .realtimePaused else none), (s.pause S).2)
  | .resume, s =>
    (.entered (if (s.resume S).1 then some .realtimeResumed else none), (s.resume S).2)
  | .requestStop, s => (.stopping s.requestStop.1, s.requestStop.2)
  | .replaceRegion, s => (.done, s.replaceRegion)
  | .disconnect, s => (.done, s.onTransport .disconnect)
  | .take c, s =>
    (.found (s.transport.completions.look c),
      s.onTransport fun t => { t with completions := (t.completions.take c).2 })

end Stage

namespace Transport

/-! ### What an operation does to the transport -/

/-- What an operation does to a transport, and what it puts out for it. -/
inductive Acted (t : Transport) : Op → Output → Transport → Prop where
  | arms (hd : t.disconnected = false) :
      Acted t .armStart (.armed (.ok t.completions.size))
        { t.dropStart with
          startSignal := some t.completions.size, completions := t.dropStart.completions.issue.2 }
  | cannotArm (e : Error) (hd : t.disconnected = true) : Acted t .armStart (.armed (.error e)) t
  | drops : Acted t .dropStart .done t.dropStart
  | changes (p : PlayState) : Acted t (.change p) (.entered (some p)) (t.enter p)
  | pauses : Acted t .pause (.entered (some .realtimePaused)) (t.enter .realtimePaused)
  | resumes : Acted t .resume (.entered (some .realtimeResumed)) (t.enter .realtimeResumed)
  | doesNotPause : Acted t .pause (.entered none) t
  | doesNotResume : Acted t .resume (.entered none) t
  | stops (hd : t.disconnected = false) :
      Acted t .requestStop (.stopping (.ok (some t.completions.size)))
        { t.dropStop with
          stopSignal := some t.completions.size, completions := t.dropStop.completions.issue.2 }
  | cannotStop (r : Except Error (Option Nat)) (hr : ∀ c, r ≠ .ok (some c)) :
      Acted t .requestStop (.stopping r) t
  | replaces (i : Nat) : Acted t .replaceRegion .done { t with io := { t.io with region := i } }
  | disconnects : Acted t .disconnect .done t.disconnect
  | takes (c : Nat) :
      Acted t (.take c) (.found (t.completions.look c))
        { t with completions := (t.completions.take c).2 }

theorem size_dropStart (t : Transport) : t.dropStart.completions.size = t.completions.size := by
  rw [dropStart]
  split
  · rfl
  · exact Completions.size_drop _ _

theorem size_dropStop (t : Transport) : t.dropStop.completions.size = t.completions.size := by
  rw [dropStop]
  split
  · rfl
  · exact Completions.size_drop _ _

/-- Whoever is told of phases, and whatever they do: this is what an operation does to the transport. -/
theorem act_cases {κ : Type} (S : Surroundings κ) (op : Op) (s : Stage κ) :
    Acted s.transport op (s.act S op).1 (s.act S op).2.transport := by
  cases op with
  | armStart =>
    show Acted _ _ (.armed s.transport.armStart.1) s.transport.armStart.2
    rw [armStart]
    cases hd : s.transport.disconnected with
    | true => exact .cannotArm _ hd
    | false =>
      have h := Acted.arms hd
      rw [← size_dropStart] at h
      exact h
  | dropStart => exact .drops
  | change p =>
    have h := Acted.changes (t := s.transport) p
    rw [← Stage.change_transport S p s] at h
    exact h
  | pause =>
    rw [Stage.act, Stage.pause]
    split
    · show Acted _ _ (.entered (some .realtimePaused)) (Stage.change S _ _).transport
      rw [Stage.change_transport]
      exact .pauses
    · exact .doesNotPause
  | resume =>
    rw [Stage.act, Stage.resume]
    split
    · show Acted _ _ (.entered (some .realtimeResumed)) (Stage.change S _ _).transport
      rw [Stage.change_transport]
      exact .resumes
    · exact .doesNotResume
  | requestStop =>
    rw [Stage.act, Stage.requestStop]
    split
    · refine .cannotStop _ fun c h => ?_
      cases h
    · split
      · refine .cannotStop _ fun c h => ?_
        cases h
      · next hd =>
        have h := Acted.stops (t := s.transport) (by simpa using hd)
        rw [← size_dropStop] at h
        exact h
  | replaceRegion => exact .replaces _
  | disconnect => exact .disconnects
  | take c => exact .takes c

/-! ### What is kept of a transport -/

section

variable (t : Transport) (p : PlayState)

@[simp] theorem dropStart_stopSignal : t.dropStart.stopSignal = t.stopSignal := by
  rw [dropStart]
  split <;> rfl

@[simp] theorem dropStop_stopSignal : t.dropStop.stopSignal = none := by
  rw [dropStop]
  split
  · assumption
  · rfl

@[simp] theorem dropStart_disconnected : t.dropStart.disconnected = t.disconnected := by
  rw [dropStart]
  split <;> rfl

@[simp] theorem dropStop_disconnected : t.dropStop.disconnected = t.disconnected := by
  rw [dropStop]
  split <;> rfl

@[simp] theorem dropStart_io : t.dropStart.io = t.io := by
  rw [dropStart]
  split <;> rfl

@[simp] theorem dropStop_io : t.dropStop.io = t.io := by
  rw [dropStop]
  split <;> rfl

@[simp] theorem enter_io : (t.enter p).io = t.io := by
  rw [enter, resolveStart_io]
  split
  · exact resolveStop_io _ p
  · rfl

theorem resolveStart_frame :
    (t.resolveStart p).stopSignal = t.stopSignal ∧
      (t.resolveStart p).disconnected = t.disconnected ∧
      (t.resolveStart p).completions.size = t.completions.size := by
  rw [resolveStart]
  split
  · exact ⟨rfl, rfl, rfl⟩
  · exact ⟨rfl, rfl, Completions.size_resolve _ _ _⟩

theorem resolveStop_frame :
    (t.resolveStop p).stopSignal = none ∧
      (t.resolveStop p).disconnected = t.disconnected ∧
      (t.resolveStop p).completions.size = t.completions.size := by
  rw [resolveStop]
  split
  · next h => exact ⟨h, rfl, rfl⟩
  · exact ⟨rfl, rfl, Completions.size_resolve _ _ _⟩

theorem enter_frame :
    (t.enter p).stopSignal = (if p.isEnded then none else t.stopSignal) ∧
      (t.enter p).disconnected = t.disconnected ∧
      (t.enter p).completions.size = t.completions.size := by
  rw [enter]
  obtain ⟨hs, hd, hz⟩ := resolveStart_frame
    (if p.isEnded then ({ t with current := p } : Transport).resolveStop p else { t with current := p }) p
  rw [hs, hd, hz]
  split
  · exact resolveStop_frame _ p
  · exact ⟨rfl, rfl, rfl⟩

theorem look_dropStart (c : Nat) :
    t.dropStart.completions.look c =
      if t.startSignal = some c ∧ t.completions.look c = .opened then .closed
      else t.completions.look c := by
  rw [dropStart]
  cases hs : t.startSignal with
  | none => simp
  | some i => simp [Completions.look_drop]

theorem look_dropStop (c : Nat) :
    t.dropStop.completions.look c =
      if t.stopSignal = some c ∧ t.completions.look c = .opened then .closed
      else t.completions.look c := by
  rw [dropStop]
  cases hs : t.stopSignal with
  | none => simp
  | some i => simp [Completions.look_drop]

/-- A phase resolves the start that is waited for, and the stop too if it is an end. -/
theorem look_enter (c : Nat) :
    (t.enter p).completions.look c =
      if (t.startSignal = some c ∨ (p.isEnded = true ∧ t.stopSignal = some c)) ∧
          t.completions.look c = .opened then .resolved p
      else t.completions.look c := by
  rw [enter, look_resolveStart]
  by_cases hp : p.isEnded = true
  · rw [if_pos hp, resolveStop_startSignal, look_resolveStop]
    cases hl : t.completions.look c with
    | opened => by_cases hs : t.stopSignal = some c <;> simp [hp, hs]
    | resolved q => simp
    | closed => simp
  · rw [if_neg hp]
    simp [hp]

@[simp] theorem disconnect_signals :
    t.disconnect.startSignal = none ∧ t.disconnect.stopSignal = none := by
  refine ⟨?_, dropStop_stopSignal _⟩
  show t.dropStart.dropStop.startSignal = none
  rw [dropStop_startSignal, dropStart_startSignal]

theorem look_disconnect (c : Nat) :
    t.disconnect.completions.look c =
      if (t.startSignal = some c ∨ t.stopSignal = some c) ∧ t.completions.look c = .opened then .closed
      else t.completions.look c := by
  show t.dropStart.dropStop.completions.look c = _
  rw [look_dropStop, dropStart_stopSignal, look_dropStart]
  by_cases hs : t.startSignal = some c <;> cases hl : t.completions.look c <;> simp [hs]

/-- What the completions are after a start was asked for. -/
theorem look_issue_dropStart (c : Nat) :
    t.dropStart.completions.issue.2.look c =
      if c = t.completions.size then .opened
      else if t.startSignal = some c ∧ t.completions.look c = .opened then .closed
      else t.completions.look c := by
  rw [Completions.look_issue_eq, size_dropStart, look_dropStart]

theorem look_issue_dropStop (c : Nat) :
    t.dropStop.completions.issue.2.look c =
      if c = t.completions.size then .opened
      else if t.stopSignal = some c ∧ t.completions.look c = .opened then .closed
      else t.completions.look c := by
  rw [Completions.look_issue_eq, size_dropStop, look_dropStop]

theorem size_issue_dropStart : t.dropStart.completions.issue.2.size = t.completions.size + 1 := by
  rw [Completions.size_issue, size_dropStart]

theorem size_issue_dropStop : t.dropStop.completions.issue.2.size = t.completions.size + 1 := by
  rw [Completions.size_issue, size_dropStop]

theorem size_disconnect : t.disconnect.completions.size = t.completions.size := by
  show t.dropStart.dropStop.completions.size = _
  rw [size_dropStop, size_dropStart]

end

/-! ### The effect of an operation -/

/-- What an operation decides over a start that is waited for. -/
def startVerdict : Op → Output → Option Completion
  | .armStart, .armed (.ok _) | .dropStart, _ | .disconnect, _ => some .closed
  | _, .entered (some p) => some (.resolved p)
  | _, _ => none

/-- What an operation decides over a stop that is waited for. -/
def stopVerdict : Op → Output → Option Completion
  | .requestStop, .stopping (.ok (some _)) | .disconnect, _ => some .closed
  | _, .entered (some p) => if p.isEnded then some (.resolved p) else none
  | _, _ => none

/-- The completion that is handed out for a start. -/
def Output.start? : Output → Option Nat
  | .armed (.ok c) => some c
  | _ => none

/-- The completion that is handed out for a stop. -/
def Output.stop? : Output → Option Nat
  | .stopping (.ok (some c)) => some c
  | _ => none

/-- Who waits for what after an operation, and what every completion shows then, by what is handed out and
what is decided. -/
structure Effect (t : Transport) (op : Op) (o : Output) (t' : Transport) : Prop where
  start_eq : t'.startSignal =
    if o.start? ≠ none then o.start? else if startVerdict op o ≠ none then none else t.startSignal
  stop_eq : t'.stopSignal =
    if o.stop? ≠ none then o.stop? else if stopVerdict op o ≠ none then none else t.stopSignal
  look_eq : ∀ c, t'.completions.look c =
    if o.start? = some c ∨ o.stop? = some c then .opened
    else if t.startSignal = some c ∧ t.completions.look c = .opened ∧ startVerdict op o ≠ none then
      (startVerdict op o).getD .opened
    else if t.stopSignal = some c ∧ t.completions.look c = .opened ∧ stopVerdict op o ≠ none then
      (stopVerdict op o).getD .opened
    else if op = .take c ∧ t.completions.look c ≠ .opened then .closed
    else t.completions.look c
  size_le : t.completions.size ≤ t'.completions.size
  fresh : ∀ c, o.start? = some c ∨ o.stop? = some c →
    c = t.completions.size ∧ c < t'.completions.size
  one : o.start? = none ∨ o.stop? = none
  start_replaced : o.start? ≠ none → startVerdict op o ≠ none
  stop_replaced : o.stop? ≠ none → stopVerdict op o ≠ none
  gone : t'.disconnected = true → o.start? = none ∧ o.stop? = none ∧
    (t.disconnected = true ∨ (startVerdict op o ≠ none ∧ stopVerdict op o ≠ none))

theorem startVerdict_ne (op : Op) (o : Output) : startVerdict op o ≠ some .opened := by
  rw [startVerdict.eq_def]
  split <;> simp

theorem stopVerdict_ne (op : Op) (o : Output) : stopVerdict op o ≠ some .opened := by
  rw [stopVerdict.eq_def]
  split <;> simp

section

variable {t t' : Transport} {op : Op} {o : Output} {c : Nat} {k : Completion}

/-- A phase that is entered hands out nothing, and decides over everything that it may. -/
theorem effect_enter (t : Transport) {p : PlayState}
    (hstart : startVerdict op (.entered (some p)) = some (.resolved p))
    (hstop : stopVerdict op (.entered (some p)) = if p.isEnded then some (.resolved p) else none)
    (htake : ∀ c, op ≠ .take c) : Effect t op (.entered (some p)) (t.enter p) := by
  obtain ⟨hsignal, hdis, hsize⟩ := t.enter_frame p
  have hlook := t.look_enter p
  have hnone := t.enter_startSignal p
  constructor
  all_goals grind [Output.start?, Output.stop?]

/-- An operation that hands out nothing and decides nothing leaves everything as it is. -/
theorem effect_idle (hstart : o.start? = none) (hstop : o.stop? = none) (hv : startVerdict op o = none)
    (hw : stopVerdict op o = none) (htake : ∀ c, op ≠ .take c) (hs : t'.startSignal = t.startSignal)
    (hp : t'.stopSignal = t.stopSignal) (hc : t'.completions = t.completions)
    (hd : t'.disconnected = t.disconnected) : Effect t op o t' := by
  constructor
  all_goals grind

/-- **An operation hands out at most one completion, and decides over those that are waited for.** -/
theorem Acted.effect (ha : Acted t op o t') : Effect t op o t' := by
  cases ha with
  | arms hd =>
    have hlook := t.look_issue_dropStart
    have hsize := t.size_issue_dropStart
    have hstop := t.dropStart_stopSignal
    have hdis := t.dropStart_disconnected
    constructor
    all_goals grind [Output.start?, Output.stop?, startVerdict, stopVerdict]
  | drops =>
    have hlook := t.look_dropStart
    have hsize := t.size_dropStart
    have hstart := t.dropStart_startSignal
    have hstop := t.dropStart_stopSignal
    have hdis := t.dropStart_disconnected
    constructor
    all_goals grind [Output.start?, Output.stop?, startVerdict, stopVerdict]
  | stops hd =>
    have hlook := t.look_issue_dropStop
    have hsize := t.size_issue_dropStop
    have hstart := t.dropStop_startSignal
    have hdis := t.dropStop_disconnected
    constructor
    all_goals grind [Output.start?, Output.stop?, startVerdict, stopVerdict]
  | disconnects =>
    obtain ⟨hstart, hstop⟩ := t.disconnect_signals
    have hlook := t.look_disconnect
    have hsize := t.size_disconnect
    constructor
    all_goals grind [Output.start?, Output.stop?, startVerdict, stopVerdict]
  | takes i =>
    have hlook := t.completions.look_take i
    have hsize := t.completions.size_take i
    constructor
    all_goals grind [Output.start?, Output.stop?, startVerdict, stopVerdict]
  | changes p => exact effect_enter t rfl rfl nofun
  | pauses => exact effect_enter t rfl rfl nofun
  | resumes => exact effect_enter t rfl rfl nofun
  | cannotStop r hr =>
    cases r with
    | error e => exact effect_idle rfl rfl rfl rfl nofun rfl rfl rfl rfl
    | ok i =>
      cases i with
      | none => exact effect_idle rfl rfl rfl rfl nofun rfl rfl rfl rfl
      | some i => exact absurd rfl (hr i)
  | doesNotPause | doesNotResume | cannotArm _ _ | replaces _ =>
    exact effect_idle rfl rfl rfl rfl nofun rfl rfl rfl rfl

end

/-! ### How it stands with a completion -/

/-- Exactly the completions that are waited for are open, each is waited for as a start or as a stop, and
when the worker is gone nobody waits. -/
structure Proper (t : Transport) : Prop where
  start_open : ∀ c, t.startSignal = some c → t.completions.look c = .opened
  stop_open : ∀ c, t.stopSignal = some c → t.completions.look c = .opened
  apart : ∀ c, t.startSignal = some c → t.stopSignal ≠ some c
  awaited : ∀ c, t.completions.look c = .opened → t.startSignal = some c ∨ t.stopSignal = some c
  alone : t.disconnected = true → t.startSignal = none ∧ t.stopSignal = none

/-- A completion was handed out, came to this, and is not waited for any more. -/
structure Settled (t : Transport) (c : Nat) (k : Completion) : Prop where
  issued : c < t.completions.size
  look_eq : t.completions.look c = k
  not_start : t.startSignal ≠ some c
  not_stop : t.stopSignal ≠ some c

/-- A completion is waited for as a start. -/
structure AwaitsStart (t : Transport) (c : Nat) : Prop where
  signal : t.startSignal = some c
  opened : t.completions.look c = .opened
  not_stop : t.stopSignal ≠ some c

/-- A completion is waited for as a stop. -/
structure AwaitsStop (t : Transport) (c : Nat) : Prop where
  signal : t.stopSignal = some c
  opened : t.completions.look c = .opened
  not_start : t.startSignal ≠ some c

section

variable {t t' : Transport} {op : Op} {o : Output} {c : Nat} {k : Completion}

/-- An open completion is on the books. -/
theorem Proper.lt_size (h : Proper t) (hc : t.startSignal = some c ∨ t.stopSignal = some c) :
    c < t.completions.size := by
  refine t.completions.lt_size_of_look ?_
  rcases hc with hc | hc
  · rw [h.start_open c hc]
    exact nofun
  · rw [h.stop_open c hc]
    exact nofun

/-- **Every operation keeps the books in order.** -/
theorem Proper.step (h : Proper t) (ha : Acted t op o t') : Proper t' := by
  have hlt := fun c => h.lt_size (c := c)
  have hdecides := startVerdict_ne op o
  have hdecides' := stopVerdict_ne op o
  obtain ⟨hstartOpen, hstopOpen, hapart, hawaited, halone⟩ := h
  obtain ⟨hstart, hstop, hlook, hsize, hfresh, hone, hstart', hstop', hgone⟩ := ha.effect
  -- a decision closes a completion or resolves it
  cases hv : startVerdict op o <;> cases hw : stopVerdict op o
  all_goals
    refine ⟨?_, ?_, ?_, ?_, ?_⟩
    all_goals grind

/-- **What a completion came to stays, until it is taken.** -/
theorem Settled.step (h : Settled t c k) (hk : k ≠ .opened) (ha : Acted t op o t') :
    Settled t' c (if op = .take c then .closed else k) := by
  obtain ⟨hissued, hk', hnotStart, hnotStop⟩ := h
  obtain ⟨hstart, hstop, hlook, hsize, hfresh, hone, hstart', hstop', hgone⟩ := ha.effect
  refine ⟨?_, ?_, ?_, ?_⟩
  all_goals grind

/-- **A start that is waited for is decided by the first operation that has a verdict over it.** -/
theorem AwaitsStart.step (h : AwaitsStart t c) (hb : Proper t) (ha : Acted t op o t') :
    match startVerdict op o with
    | none => AwaitsStart t' c
    | some k => k ≠ .opened ∧ Settled t' c k := by
  have hlt := hb.lt_size (Or.inl h.signal)
  have hdecides := startVerdict_ne op o
  obtain ⟨hsignal, hopened, hnot⟩ := h
  obtain ⟨hstart, hstop, hlook, hsize, hfresh, hone, hstart', hstop', hgone⟩ := ha.effect
  cases hv : startVerdict op o with
  | none =>
    refine ⟨?_, ?_, ?_⟩
    all_goals grind
  | some k =>
    refine ⟨?_, ?_, ?_, ?_, ?_⟩
    all_goals grind

/-- **A stop that is waited for is decided by the first operation that has a verdict over it.** -/
theorem AwaitsStop.step (h : AwaitsStop t c) (hb : Proper t) (ha : Acted t op o t') :
    match stopVerdict op o with
    | none => AwaitsStop t' c
    | some k => k ≠ .opened ∧ Settled t' c k := by
  have hlt := hb.lt_size (Or.inr h.signal)
  have hdecides := stopVerdict_ne op o
  obtain ⟨hsignal, hopened, hnot⟩ := h
  obtain ⟨hstart, hstop, hlook, hsize, hfresh, hone, hstart', hstop', hgone⟩ := ha.effect
  cases hv : stopVerdict op o with
  | none =>
    refine ⟨?_, ?_, ?_⟩
    all_goals grind
  | some k =>
    refine ⟨?_, ?_, ?_, ?_, ?_⟩
    all_goals grind

end

theorem Proper.new (io : Handle) : Proper { io := io } := by
  have hlook : ∀ c, Completions.look #[] c = .closed := fun _ => rfl
  refine ⟨nofun, nofun, nofun, fun c hc => ?_, nofun⟩
  rw [hlook] at hc
  cases hc

end Transport
end SynthControl
