import SynthControl.Proofs.Agreement

/-!
# Whole conversations are runs

A session is used through whole conversations and calls, in which the parties take turns in a fixed order.
Each of them is a run of the client among the others, so that whatever holds in every state that can be
reached holds after any use of a session.

* `Session.settle_run`, `Session.round_run` — what the others do in between;
* `Session.drive_induct`, `Session.drive_run` — what holds while a task goes on, and **a task that is answered is a
  run** of the client and the others;
* `Session.Used`, `Session.Used.run` — a use of a session that is answered, and that it is a run;
* `playState_isStoppable_iff` — **after any uses the present phase can be stopped exactly if something is
  performed**.
-/

namespace SynthControl

open Ensemble Relation

variable {φ σ ω : Type} {E : Engine φ σ}

namespace Session

/-! ### The others -/

theorem routeAll_run (s : Session φ σ ω) (k : Client) :
    ReflTransGen (Proceeds E) ⟨s, k⟩ ⟨{ s with link := s.link.routeAll }, k⟩ := by
  have hfold : ∀ (ns : List Nat) (l : Link φ σ), ReflTransGen (Proceeds E) ⟨{ s with link := l }, k⟩
      ⟨{ s with link := ns.foldl (fun l _ => l.route) l }, k⟩ := by
    intro ns
    induction ns with
    | nil => exact fun _ => .refl
    | cons n ns ih => exact fun l => .head .router (ih l.route)
  exact hfold _ s.link

theorem dispatchAll_run (s : Session φ σ ω) (k : Client) :
    ReflTransGen (Proceeds E) ⟨s, k⟩ ⟨s.dispatchAll, k⟩ := by
  have hfold : ∀ (ns : List Nat) (s : Session φ σ ω), ReflTransGen (Proceeds E) ⟨s, k⟩
      ⟨ns.foldl (fun s _ => s.dispatch) s, k⟩ := by
    intro ns
    induction ns with
    | nil => exact fun _ => .refl
    | cons n ns ih => exact fun s => .head .dispatcher (ih s.dispatch)
  exact hfold _ s

theorem settle_run (s : Session φ σ ω) (k : Client) :
    ReflTransGen (Proceeds E) ⟨s, k⟩ ⟨s.settle, k⟩ :=
  (routeAll_run s k).trans (dispatchAll_run _ k)

theorem reports_setStage (s : Session φ σ ω) (t : Stage (Outlets ω)) :
    (s.setStage t).link.bench.reports = s.link.bench.reports := rfl

theorem reports_dispatch (s : Session φ σ ω) :
    s.dispatch.link.bench.reports = s.link.bench.reports.tail := by
  rw [dispatch]
  split
  · rfl
  · rfl
  · next hr =>
    split <;> exact hr.trans (congrArg List.tail hr).symm

theorem reports_settle (s : Session φ σ ω) : s.settle.link.bench.reports = [] := by
  have hfold : ∀ (ns : List Nat) (s : Session φ σ ω), s.link.bench.reports.length ≤ ns.length →
      (ns.foldl (fun s _ => s.dispatch) s).link.bench.reports = [] := by
    intro ns
    induction ns with
    | nil => exact fun s h => List.length_eq_zero_iff.1 (Nat.le_zero.1 h)
    | cons n ns ih =>
      intro s h
      refine ih s.dispatch ?_
      rw [reports_dispatch, List.length_tail]
      rw [List.length_cons] at h
      omega
  refine hfold _ _ ?_
  rw [List.length_range]
  exact Nat.le_succ _

/-- While the client waits, worker and device move if they can, and then router and dispatcher. -/
theorem round_run (s : Session φ σ ω) (k : Client) :
    ReflTransGen (Proceeds E) ⟨s, k⟩ ⟨(s.round E).2, k⟩ := by
  have hworker : ReflTransGen (Proceeds E) ⟨s, k⟩
      ⟨if s.link.canServe then { s with link := s.link.serve E } else s, k⟩ := by
    split
    · exact .single (.worker false)
    · exact .refl
  refine hworker.trans ?_
  rw [round]
  dsimp only
  generalize (if s.link.canServe = true then _ else _ : Session φ σ ω) = s'
  refine ReflTransGen.trans ?_ (settle_run _ k)
  split
  · exact .single .device
  · exact .refl

/-! ### The client -/

section

variable {τ α : Type} {turn : Bool → τ → Session φ σ ω → Turn τ α (Session φ σ ω)}

/-- What holds when a client begins a task, and is kept by its steps and while it waits, leads to what holds when it
has its answer. -/
theorem drive_induct {P : τ → Session φ σ ω → Prop} {Q : α → Session φ σ ω → Prop} {patience wait : Nat} {task : τ}
    {s s' : Session φ σ ω} {a : α} (h : drive E turn patience wait task s = (some a, s')) (hs : P task s)
    (hgoes : ∀ {b task task' s s'}, P task s → turn b task s = .goesOn task' s' → P task' s'.settle)
    (hends : ∀ {b task a s s'}, P task s → turn b task s = .ends a s' → Q a s'.settle)
    (hround : ∀ {task s}, P task s → P task (s.round E).2) : Q a s' := by
  induction patience generalizing wait task s with
  | zero => cases h
  | succ patience ih =>
    rw [drive] at h
    split at h
    · next ht =>
      cases h
      exact hends hs ht
    · next ht => exact ih h (hgoes hs ht)
    · next ht =>
      have hwaited := hround hs
      split at h
      · next hr =>
        rw [hr] at hwaited
        exact ih h hwaited
      · next hr =>
        rw [hr] at hwaited
        split at h
        · cases h
        · exact ih h hwaited

/-- **A task that is answered is a run of the client and the others.**  The client makes its steps one by
one, and waits in between. -/
theorem drive_run (client : τ → Client) {patience wait : Nat} {task : τ} {s s' : Session φ σ ω} {a : α}
    (h : drive E turn patience wait task s = (some a, s'))
    (hgoes : ∀ {b task task' s s'}, turn b task s = .goesOn task' s' →
      Proceeds E ⟨s, client task⟩ ⟨s', client task'⟩)
    (hends : ∀ {b task a s s'}, turn b task s = .ends a s' →
      Proceeds E ⟨s, client task⟩ ⟨s', .free⟩) :
    ReflTransGen (Proceeds E) ⟨s, client task⟩ ⟨s', .free⟩ :=
  drive_induct (P := fun task₁ s₁ => ReflTransGen (Proceeds E) ⟨s, client task⟩ ⟨s₁, client task₁⟩)
    (Q := fun _ s₁ => ReflTransGen (Proceeds E) ⟨s, client task⟩ ⟨s₁, .free⟩) h .refl
    (fun hrun ht => (hrun.tail (hgoes ht)).trans (settle_run _ _))
    (fun hrun ht => (hrun.tail (hends ht)).trans (settle_run _ _))
    (fun hrun => hrun.trans (round_run _ _))

/-- Whoever has its answer leaves no report behind. -/
theorem reports_of_drive {patience wait : Nat} {task : τ} {s s' : Session φ σ ω} {a : α}
    (h : drive E turn patience wait task s = (some a, s')) : s'.link.bench.reports = [] :=
  drive_induct (P := fun _ _ => True) (Q := fun _ s₁ => s₁.link.bench.reports = []) h trivial
    (fun _ _ => trivial) (fun _ _ => reports_settle _) (fun _ => trivial)

end

/-! ### Uses of a session -/

theorem pause_snd (s : Session φ σ ω) :
    s.pause.2 = s.settle.setStage (s.settle.stage.pause Outlets.surroundings).2 := by
  generalize hs : s.settle = s'
  simp only [pause, hs]

theorem resume_snd (s : Session φ σ ω) :
    s.resume.2 = s.settle.setStage (s.settle.stage.resume Outlets.surroundings).2 := by
  generalize hs : s.settle = s'
  simp only [resume, hs]

/-- A use of a session that is answered. -/
inductive Used (E : Engine φ σ) (s : Session φ σ ω) : Session φ σ ω → Prop where
  | converse {task : Lifecycle} {a : Except Error Int} {s' : Session φ σ ω}
      (ht : task = .arm ∨ task = .requestStop .stop ∨ task = .checkReset)
      (h : drive E (fun _ task s => Lifecycle.turn s task) patience 0 task s.settle = (some a, s')) :
      Used E s s'
  | invoke {op : Operation} {args : List Value} {a : Except Error (Option Value)} {s' : Session φ σ ω}
      (h : drive E (fun expired task s => Invocation.turn expired s task) patience s.waitRounds
        (.look op args) s.settle = (some a, s')) : Used E s s'
  | pause : Used E s s.pause.2
  | resume : Used E s s.resume.2

namespace Used

variable {s s' : Session φ σ ω}

/-- **A use of a session is a run of a client that is free before and after.** -/
theorem run (h : Used E s s') : ReflTransGen (Step E) ⟨s, .free⟩ ⟨s', .free⟩ := by
  have hothers : ∀ {u v : Ensemble φ σ ω}, ReflTransGen (Proceeds E) u v → ReflTransGen (Step E) u v :=
    fun h => ReflTransGen.mono (fun _ _ => .inr) _ _ h
  have hsettle : ReflTransGen (Step E) ⟨s, .free⟩ ⟨s.settle, .free⟩ := hothers (settle_run s .free)
  refine hsettle.trans ?_
  cases h with
  | converse ht h =>
    have hrun := drive_run .lifecycle h (fun h => .turn h) fun h => .ends h
    rcases ht with rfl | rfl | rfl
    · exact .head (.inl .start) (hothers hrun)
    · exact .head (.inl .stop) (hothers hrun)
    · exact .head (.inl .reset) (hothers hrun)
  | @invoke op args _ _ h =>
    have hrun := drive_run .call h (fun h => .invoke _ h) fun h => .returns _ h
    exact .head (.inl (.call op args)) (hothers hrun)
  | pause =>
    rw [pause_snd]
    exact .single (.inl .pause)
  | resume =>
    rw [resume_snd]
    exact .single (.inl .resume)

/-- It leaves no report behind. -/
theorem reports_eq_nil (h : Used E s s') : s'.link.bench.reports = [] := by
  cases h with
  | converse _ h => exact reports_of_drive h
  | invoke h => exact reports_of_drive h
  | pause =>
    rw [pause_snd, reports_setStage]
    exact reports_settle s
  | resume =>
    rw [resume_snd, reports_setStage]
    exact reports_settle s

end Used

end Session

/-- **After any uses of a session the present phase can be stopped exactly if something is performed**, as long
as the worker did not crash. -/
theorem playState_isStoppable_iff (hE : E.RefusesQuietly) {factory : φ} {config : Config}
    {device : Option (Render.Device ω)} (hd : ∀ d, device = some d → d.Quiet) {log : Listener ω}
    {world : ω} {s s' : Session φ σ ω}
    (hs : Session.create E factory config device log world = .ok s)
    (hu : ReflTransGen (Session.Used E) s s') (hl : s'.link.bench.life ≠ .crashed) :
    s'.playState.isStoppable = true ↔ s'.link.bench.active?.isSome = true := by
  have hrun : Reachable E device ⟨s', .free⟩ ∧ phases s'.link.bench.reports = [] := by
    clear hl
    induction hu with
    | refl =>
      exact ⟨⟨factory, config, log, world, s, hs, .refl⟩, (Session.create_settled hs).silent⟩
    | tail _ hused ih =>
      obtain ⟨f, c, l, w, s₀, hc, hr⟩ := ih.1
      exact ⟨⟨f, c, l, w, s₀, hc, hr.trans hused.run⟩, by rw [hused.reports_eq_nil]; rfl⟩
  have hagree := (agrees_of_reachable hE hd hrun.1).agree hl
  rw [hrun.2] at hagree
  exact Bool.eq_iff_iff.1 hagree

end SynthControl
