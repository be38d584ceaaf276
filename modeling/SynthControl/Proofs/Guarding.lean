import SynthControl.Proofs.SharedSession

/-!
# Guarded calls wait for the boundary of a cycle

A guarded operation is not to be sent into the middle of a cycle: while something runs, its caller waits for the
boundary of one first.  Whether something runs the caller reads from the phase.

* `CallAct`, `Invocation.seen`, `Invocation.course` — what can be seen of a call, whatever the others do between its
  steps;
* `Guarded` — nothing is sent before a wait has ended well, and after one that timed out nothing is sent at all;
* `guarded_of_isActive`, `guarded_of_isEnded`, `sent_at_once` — **the present phase decides whether a call is
  guarded**;
* `Tracks.phase_of_performing`, `Tracks.phase_of_rendering` — which phase it is while something runs;
* `guarded_iff` — **while a realtime performance runs a guarded operation waits for the boundary of a cycle unless
  the performance has been resumed; while an offline one runs it always does**.
-/

namespace SynthControl

variable {φ σ ω ι : Type}

/-! ### What can be seen of a call -/

/-- What a client does in a call. -/
inductive CallAct where
  /-- A wait for the boundary of a cycle, on some region, has ended. -/
  | waited (region : Nat) (outcome : Region.Outcome)
  | sent (op : Operation) (args : List Value)
  | answered (answer : Except Error (Option Value))

namespace Invocation

/-- What a step of a call shows. -/
def seen : Invocation → Session.Turn Invocation (Except Error (Option Value)) (Session φ σ ω) → List CallAct
  | enter _ _ i, .goesOn (send _ _) _ => [.waited i .notEqual]
  | await _ _ i _, .goesOn _ _ => [.waited i .notified]
  | await _ _ i _, .ends a _ => [.waited i .timedOut, .answered a]
  | send op args, .goesOn _ _ => [.sent op args]
  | _, .ends a _ => [.answered a]
  | _, _ => []

/-- What is seen of a call whose client finds these sessions at its steps: between two of them the others may have
done anything.  `true` says that a wait for the boundary of a cycle is over then. -/
def course : List (Bool × Session φ σ ω) → Invocation → List CallAct
  | [], _ => []
  | (expired, s) :: rest, task =>
    match turn expired s task with
    | .blocked => course rest task
    | .goesOn task' s' => seen task (.goesOn task' s') ++ course rest task'
    | .ends a s' => seen task (.ends a s')

end Invocation

/-- A call is guarded: all its waits are on the region `i`, nothing is sent before one of them has ended by a notice
or found the word raised, and if one has timed out nothing is sent and the call is dropped. -/
structure Guarded (i : Nat) (acts : List CallAct) : Prop where
  region_eq : ∀ j o, .waited j o ∈ acts → j = i
  sent_after : ∀ before op args after, acts = before ++ .sent op args :: after →
    .waited i .notified ∈ before ∨ .waited i .notEqual ∈ before
  timed_out : .waited i .timedOut ∈ acts → acts = [.waited i .timedOut, .answered (.ok none)]

namespace Invocation

variable (op : Operation) (args : List Value) (i : Nat)

/-- A call that was sent is answered, if it ever is. -/
theorem course_awaitReply (uid : Nat) (found : List (Bool × Session φ σ ω)) :
    course found (.awaitReply op uid) = [] ∨ ∃ a, course found (.awaitReply op uid) = [.answered a] := by
  induction found with
  | nil => exact .inl rfl
  | cons p rest ih =>
    obtain ⟨expired, s⟩ := p
    rw [course, turn]
    split
    · exact ih
    · next h => split at h <;> cases h
    · exact .inr ⟨_, rfl⟩

/-- A call that need not wait any more is sent and answered, as far as it gets. -/
theorem course_send (found : List (Bool × Session φ σ ω)) :
    course found (.send op args) = [] ∨ (∃ a, course found (.send op args) = [.answered a]) ∨
      course found (.send op args) = [.sent op args] ∨
        ∃ a, course found (.send op args) = [.sent op args, .answered a] := by
  cases found with
  | nil => exact .inl rfl
  | cons p rest =>
    obtain ⟨expired, s⟩ := p
    cases hn : s.number with
    | none =>
      refine .inr (.inl ⟨.error (.remote op.name "no engine instance"), ?_⟩)
      rw [course, turn, hn]
      rfl
    | some n =>
      rcases hs : s.link.submit (.call n op args) with ⟨e | uid, l⟩
      · refine .inr (.inl ⟨.error e, ?_⟩)
        rw [course, turn, hn]
        dsimp only
        rw [hs]
        rfl
      · have hsent : course ((expired, s) :: rest) (.send op args) =
            .sent op args :: course rest (.awaitReply op uid) := by
          rw [course, turn, hn]
          dsimp only
          rw [hs]
          rfl
        rw [hsent]
        rcases course_awaitReply op uid rest with hr | ⟨a, hr⟩
        · exact .inr (.inr (.inl (by rw [hr])))
        · exact .inr (.inr (.inr ⟨a, by rw [hr]⟩))

/-- A wait for the boundary of a cycle ends with a notice, and then the call is sent, or with a time-out, and then it
is dropped. -/
theorem course_await (w : Region.Wait) (found : List (Bool × Session φ σ ω)) :
    course found (.await op args i w) = [] ∨
      course found (.await op args i w) = [.waited i .timedOut, .answered (.ok none)] ∨
      ∃ rest : List (Bool × Session φ σ ω),
        course found (.await op args i w) = .waited i .notified :: course rest (.send op args) := by
  induction found with
  | nil => exact .inl rfl
  | cons p rest ih =>
    obtain ⟨expired, s⟩ := p
    by_cases hw : w.isOver (s.memory.region i) = true
    · refine .inr (.inr ⟨rest, ?_⟩)
      rw [course, turn, if_pos hw]
      rfl
    · by_cases he : expired = true
      · refine .inr (.inl ?_)
        rw [course, turn, if_neg hw, if_pos he]
        rfl
      · rw [course, turn, if_neg hw, if_neg he]
        exact ih

/-- A wait finds the word raised, or begins. -/
theorem course_enter (found : List (Bool × Session φ σ ω)) :
    course found (.enter op args i) = [] ∨
      (∃ rest : List (Bool × Session φ σ ω),
        course found (.enter op args i) = .waited i .notEqual :: course rest (.send op args)) ∨
      ∃ (w : Region.Wait) (rest : List (Bool × Session φ σ ω)),
        course found (.enter op args i) = course rest (.await op args i w) := by
  cases found with
  | nil => exact .inl rfl
  | cons p rest =>
    obtain ⟨expired, s⟩ := p
    cases hw : (s.memory.region i).enter? .cycle 0 with
    | none =>
      refine .inr (.inl ⟨rest, ?_⟩)
      rw [course, turn, hw]
      rfl
    | some w =>
      refine .inr (.inr ⟨w, rest, ?_⟩)
      rw [course, turn, hw]
      rfl

end Invocation

/-! ### The present phase decides -/

namespace Guarded

open Invocation

variable {op : Operation} {args : List Value} {i : Nat}

/-- A call of which nothing is sent and nothing is waited for. -/
theorem nil : Guarded i [] :=
  ⟨nofun, fun before op args after h => by simp at h, nofun⟩

theorem answered (a : Except Error (Option Value)) : Guarded i [.answered a] := by
  refine ⟨by simp, fun before op args after h => ?_, by simp⟩
  have hmem : CallAct.sent op args ∈ [CallAct.answered a] := h ▸ List.mem_append_right _ List.mem_cons_self
  simp at hmem

theorem timedOut : Guarded i [.waited i .timedOut, .answered (.ok none)] := by
  refine ⟨by simp, fun before op args after h => ?_, fun _ => rfl⟩
  have hmem : CallAct.sent op args ∈ [CallAct.waited i .timedOut, .answered (.ok none)] :=
    h ▸ List.mem_append_right _ List.mem_cons_self
  simp at hmem

/-- A wait that ended well, and then the call is sent. -/
theorem waited {o : Region.Outcome} (ho : o = .notified ∨ o = .notEqual) {found : List (Bool × Session φ σ ω)} :
    Guarded i (.waited i o :: course found (.send op args)) := by
  have hmem : ∀ j p, CallAct.waited j p ∉ course found (.send op args) := by
    intro j p
    rcases course_send op args found with h | ⟨a, h⟩ | h | ⟨a, h⟩ <;> simp [h]
  refine ⟨fun j p hj => ?_, fun before op' args' after h => ?_, fun ht => ?_⟩
  · rcases List.mem_cons.1 hj with hj | hj
    · cases hj
      rfl
    · exact absurd hj (hmem j p)
  · cases before with
    | nil => cases h
    | cons x before =>
      obtain ⟨rfl, -⟩ := List.cons.inj h
      rcases ho with rfl | rfl
      · exact .inl List.mem_cons_self
      · exact .inr List.mem_cons_self
  · exfalso
    rcases List.mem_cons.1 ht with ht | ht
    · cases ht
      rcases ho with ho | ho <;> cases ho
    · exact hmem i _ ht

end Guarded

namespace Invocation

variable {op : Operation} (hop : op.dispatch = .guarded) (args : List Value) (s : Session φ σ ω) (expired : Bool)
include hop

/-- **In an active phase a guarded operation is guarded**, whatever the others do meanwhile. -/
theorem guarded_of_isActive (hs : s.playState.isActive = true) (rest : List (Bool × Session φ σ ω)) :
    Guarded s.transport.io.region (course ((expired, s) :: rest) (.look op args)) := by
  have hlook : course ((expired, s) :: rest) (.look op args) = course rest (.enter op args s.transport.io.region) := by
    simp only [course, turn, hop, hs, if_true, seen, List.nil_append]
  rw [hlook]
  rcases course_enter op args s.transport.io.region rest with h | ⟨rest', h⟩ | ⟨w, rest', h⟩
  · rw [h]
    exact .nil
  · rw [h]
    exact .waited (.inr rfl)
  · rw [h]
    rcases course_await op args s.transport.io.region w rest' with h | h | ⟨rest'', h⟩ <;> rw [h]
    · exact .nil
    · exact .timedOut
    · exact .waited (.inl rfl)

/-- **In an ended phase it is dropped at once.** -/
theorem guarded_of_isEnded (ha : s.playState.isActive = false) (he : s.playState.isEnded = true)
    (rest : List (Bool × Session φ σ ω)) :
    Guarded s.transport.io.region (course ((expired, s) :: rest) (.look op args)) := by
  have hlook : course ((expired, s) :: rest) (.look op args) = [.answered (.ok none)] := by
    simp [course, turn, hop, ha, he, seen]
  rw [hlook]
  exact .answered _

/-- **In any other phase it is sent at once**, if there is an engine and the worker takes requests. -/
theorem sent_at_once (ha : s.playState.isActive = false) (he : s.playState.isEnded = false) (hn : s.number ≠ none)
    (ht : s.link.exchange.takesCalls = true) :
    course [(expired, s), (expired, s)] (.look op args) = [.sent op args] := by
  obtain ⟨n, hn⟩ := Option.ne_none_iff_exists'.1 hn
  have hlook : course [(expired, s), (expired, s)] (.look op args) = course [(expired, s)] (.send op args) := by
    simp [course, turn, hop, ha, he, seen]
  have hsubmit : (s.link.submit (.call n op args)).1 = .ok s.link.exchange.nextUid := by
    simp only [Link.submit, Exchange.issue, Exchange.register, Exchange.send, ht, if_true]
  rw [hlook]
  rcases hs : s.link.submit (.call n op args) with ⟨e | uid, l⟩
  · rw [hs] at hsubmit
    cases hsubmit
  · rw [course, turn, hn]
    dsimp only
    rw [hs]
    rfl

end Invocation

/-! ### The phase while something runs -/

namespace Tracks

variable {s : Session φ σ ω}

/-- Once the start of a performance was handed on, no phase is on its way while it runs. -/
theorem phases_eq_nil (h : Tracks s) {a : Active} (ha : s.link.bench.active? = some a)
    (hregion : a.io.region = s.transport.io.region) (hd : a.mode.started ∉ phases s.link.bench.reports) :
    phases s.link.bench.reports = [] := by
  by_contra hn
  have hlast : latest s.transport.current (phases s.link.bench.reports) ∈ phases s.link.bench.reports := by
    rw [latest, List.getLast?_eq_some_getLast hn]
    exact List.getLast_mem hn
  have hadmits := h.admits a ha hregion
  obtain ⟨m, hm⟩ := h.reported _ hlast
  generalize latest s.transport.current (phases s.link.bench.reports) = p at hlast hadmits hm
  refine hd ?_
  -- of the phases that the worker reports the mode admits its own start alone
  have hp : p = a.mode.started := by
    cases hmode : a.mode <;> rw [hmode] at hadmits <;> cases m <;> rcases hm with rfl | rfl <;>
      simp_all [Mode.Admits, Mode.started, Mode.ended]
  rwa [← hp]

/-- **While the region tells of a realtime performance that is neither paused nor to stop**, and whose start was
handed on, the phase is that of its start or of its resumption. -/
theorem phase_of_performing (h : Tracks s) (hp : s.region.get .performing = 1) (hpaused : s.region.get .paused = 0)
    (hstop : s.region.get .stop = 0) (hd : .realtimeStarted ∉ phases s.link.bench.reports) :
    (∃ a, s.link.bench.active? = some a ∧ a.mode = .realtime ∧ a.io.region = s.transport.io.region) ∧
      (s.playState = .realtimeStarted ∨ s.playState = .realtimeResumed) := by
  obtain ⟨a, ha, hregion, hmode⟩ := h.attuned .realtime _ hp
  refine ⟨⟨a, ha, hmode, hregion⟩, ?_⟩
  have hnil := h.phases_eq_nil ha hregion (by rwa [hmode])
  have hadmits := h.admits a ha hregion
  rw [hmode, hnil, latest_nil] at hadmits
  rcases hadmits with hs | hs | hs
  · exact .inl hs
  · exfalso
    rcases h.held hs with hr | hr
    · rw [hpaused] at hr
      cases hr
    · rw [hstop] at hr
      cases hr
  · exact .inr hs

/-- **While an offline performance runs in the region**, and its start was handed on, the phase is that of its
start. -/
theorem phase_of_rendering (h : Tracks s) {a : Active} (ha : s.link.bench.active? = some a) (hmode : a.mode = .offline)
    (hregion : a.io.region = s.transport.io.region) (hd : .renderStarted ∉ phases s.link.bench.reports) :
    s.playState = .renderStarted := by
  have hnil := h.phases_eq_nil ha hregion (by rwa [hmode])
  have hadmits := h.admits a ha hregion
  rwa [hmode, hnil, latest_nil] at hadmits

end Tracks

open SharedSession in
/-- **While a realtime performance runs, a guarded operation waits for the boundary of a cycle unless the performance
has been resumed; while an offline one runs it always does.**  For any engine and any callbacks that leave the words
of the course of a performance alone, any number of clients and any order of steps, in every state that can be
reached while the worker has not crashed, and whatever happens after the client has looked at the phase:

* while something is performed, a call is guarded exactly if the present phase is active or ended;
* if the region of the session tells of a realtime performance that is neither paused nor to stop, and whose start
  was handed on, then one runs in it, the phase is that of its start or of its resumption, and a call is guarded
  exactly if it is not the second;
* if an offline performance runs in the region of the session, and its start was handed on, a call is guarded; and
  one does if the region tells of it. -/
theorem guarded_iff [DecidableEq ι] {E : Engine φ σ} (hE : E.Discreet) {device : Option (Render.Device ω)}
    (hd : ∀ d, device = some d → d.Keep Io.SameCourse) {u : SharedSession φ σ ω ι} (hu : Reachable E device u)
    (hl : u.session.link.bench.life ≠ .crashed) {op : Operation} (hop : op.dispatch = .guarded) (args : List Value) :
    let s := u.session
    let guards := ∀ (expired : Bool) (rest : List (Bool × Session φ σ ω)),
      Guarded s.transport.io.region (Invocation.course ((expired, s) :: rest) (.look op args))
    (s.link.bench.active? ≠ none → (guards ↔ s.playState.isActive = true ∨ s.playState.isEnded = true)) ∧
    (s.region.get .performing = 1 → s.region.get .paused = 0 → s.region.get .stop = 0 →
      .realtimeStarted ∉ phases s.link.bench.reports →
        (∃ a, s.link.bench.active? = some a ∧ a.mode = .realtime ∧ a.io.region = s.transport.io.region) ∧
        (s.playState = .realtimeStarted ∨ s.playState = .realtimeResumed) ∧
        (guards ↔ s.playState ≠ .realtimeResumed)) ∧
    (∀ a, s.link.bench.active? = some a → a.mode = .offline → a.io.region = s.transport.io.region →
      .renderStarted ∉ phases s.link.bench.reports → s.playState = .renderStarted ∧ guards) ∧
    (s.region.get .rendering = 1 →
      ∃ a, s.link.bench.active? = some a ∧ a.mode = .offline ∧ a.io.region = s.transport.io.region) := by
  intro s guards
  have ht : Tracks s := (tracked_of_reachable hE hd hu hl).tracks
  have hguards : s.link.bench.active? ≠ none →
      (guards ↔ s.playState.isActive = true ∨ s.playState.isEnded = true) := by
    intro ha
    constructor
    · intro hg
      by_contra hn
      rw [not_or, Bool.not_eq_true, Bool.not_eq_true] at hn
      obtain ⟨a, ha⟩ := Option.ne_none_iff_exists'.1 ha
      have hsent := Invocation.sent_at_once hop args s false hn.1 hn.2 (ht.granted a ha).1 (ht.takesCalls hl ha)
      have hafter := (hg false [(false, s)]).sent_after [] op args [] (by rw [hsent]; rfl)
      simp at hafter
    · rintro hp expired rest
      by_cases hactive : s.playState.isActive = true
      · exact Invocation.guarded_of_isActive hop args s expired hactive rest
      · rw [Bool.not_eq_true] at hactive
        exact Invocation.guarded_of_isEnded hop args s expired hactive (by simpa [hactive] using hp) rest
  refine ⟨hguards, fun hp hpaused hstop hdispatched => ?_, fun a ha hmode hregion hdispatched => ?_, fun hr => ?_⟩
  · obtain ⟨hruns, hphase⟩ := ht.phase_of_performing hp hpaused hstop hdispatched
    obtain ⟨a, ha, -⟩ := id hruns
    refine ⟨hruns, hphase, (hguards (by simp [ha])).trans ?_⟩
    rcases hphase with hs | hs <;> rw [hs] <;> decide
  · have hphase := ht.phase_of_rendering ha hmode hregion hdispatched
    exact ⟨hphase, (hguards (by simp [ha])).2 (.inl (by rw [hphase]; rfl))⟩
  · obtain ⟨a, ha, hregion, hmode⟩ := ht.attuned .offline _ hr
    exact ⟨a, ha, hmode, hregion⟩

open SharedSession in
/-- One client starts a performance, another one pauses it and lets it go on: the region tells of a performance that
is neither paused nor to stop, and a guarded operation is not guarded. -/
theorem guarded_iff_resumed : ∃ u : SharedSession Unit Sine Unit Bool, Reachable Sine.engine none u ∧
    u.session.link.bench.life ≠ .crashed ∧ Operation.getKsmps.dispatch = .guarded ∧
    (u.session.region.get .performing = 1 ∧ u.session.region.get .paused = 0 ∧ u.session.region.get .stop = 0 ∧
      .realtimeStarted ∉ phases u.session.link.bench.reports) ∧
    (∃ a, u.session.link.bench.active? = some a ∧ a.mode = .realtime ∧ a.io.region = u.session.transport.io.region) ∧
    ¬ ∀ (expired : Bool) (rest : List (Bool × Session Unit Sine Unit)),
      Guarded u.session.transport.io.region
        (Invocation.course ((expired, u.session) :: rest) (.look .getKsmps [])) := by
  have hrun : ∃ u : SharedSession Unit Sine Unit Bool, Reachable Sine.engine none u ∧
      u.session.link.bench.life = .serving ∧ u.session.region.get .performing = 1 ∧
      u.session.region.get .paused = 0 ∧ u.session.region.get .stop = 0 ∧
      phases u.session.link.bench.reports = [] ∧ u.session.playState = .realtimeResumed :=
    ⟨_, ⟨(), .small, fun _ w => .done w, (), _, rfl,
      ((((((Relation.ReflTransGen.refl.tail (.of false (.inl .start))).tail (.of false (.inr (.turn rfl)))).tail
        (.of false (.inr (.turn rfl)))).tail (.of true (.inr (.worker false)))).tail
        (.of true (.inr .dispatcher))).tail (.of true (.inl .pause))).tail (.of true (.inl .resume))⟩,
      rfl, rfl, rfl, rfl, rfl, rfl⟩
  obtain ⟨u, hu, hserving, hperforming, hpaused, hstop, hphases, hresumed⟩ := hrun
  have hl : u.session.link.bench.life ≠ .crashed := by
    rw [hserving]
    decide
  have hd : Operation.getKsmps.dispatch = .guarded := by decide
  have hhanded : .realtimeStarted ∉ phases u.session.link.bench.reports := by
    rw [hphases]
    exact List.not_mem_nil
  obtain ⟨-, hlaw, -⟩ := guarded_iff Sine.engine_discreet (by simp) hu hl hd []
  obtain ⟨hruns, -, hiff⟩ := hlaw hperforming hpaused hstop hhanded
  exact ⟨u, hu, hl, hd, ⟨hperforming, hpaused, hstop, hhanded⟩, hruns, fun hg => hiff.1 hg hresumed⟩

end SynthControl
