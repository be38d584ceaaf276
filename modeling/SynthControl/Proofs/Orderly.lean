import SynthControl.Proofs.Ensemble
import SynthControl.Proofs.Worker

/-!
# One request at a time

The client waits for the answer to a request before it goes on, so never more than one request is on its way
to the worker, and what the worker does in between can be told from what the client is about.

* `Exchange.keys` — the numbers under which replies travel or were handed out;
* `Waits` — the request of a number is on its way, or it is not and was answered, or is lost;
* `Engaged` — what is on its way while the client is about something: nothing, or its own request; once a
  reset was answered nothing is performed;
* `Orderly`, `Orderly.step` — the invariant, and **every step keeps it**;
* `Bench.IsSettled` — nothing is performed, and no phase is on its way;
* `orderly_of_reachable` — **it holds whatever happens**.
-/

namespace SynthControl

variable {φ σ ω : Type}

/-! ### Requests on their way -/

/-- The numbers under which replies travel or were handed out. -/
def Exchange.keys {ρ α : Type} (x : Exchange ρ α) : List Nat := (x.replies ++ x.delivered).map Prod.fst

theorem Exchange.keys_route {ρ α : Type} (x : Exchange ρ α) {uid : Nat} (h : uid ∈ x.route.keys) :
    uid ∈ x.keys := by
  unfold keys route at *
  cases hq : x.replies with
  | nil =>
    rw [hq] at h
    dsimp only at h
    split at h <;> simpa [hq] using h
  | cons q rs =>
    obtain ⟨v, a⟩ := q
    rw [hq] at h
    dsimp only at h
    split at h
    · have hperm : (rs ++ (v, a) :: x.delivered).Perm ((v, a) :: rs ++ x.delivered) :=
        List.perm_middle
      exact (hperm.map Prod.fst).mem_iff.1 h
    · exact List.mem_cons_of_mem v h

theorem Exchange.calls_route {ρ α : Type} (x : Exchange ρ α) : x.route.calls = x.calls := by
  rw [route]
  split
  · split <;> rfl
  · split <;> rfl

theorem Exchange.nextUid_route {ρ α : Type} (x : Exchange ρ α) : x.route.nextUid = x.nextUid := by
  rw [route]
  split
  · split <;> rfl
  · split <;> rfl

/-- A reply that a caller is told came under its number. -/
theorem Link.mem_keys_of_collect {l : Link φ σ} {label : String} {uid : Nat} {v : Value}
    (h : l.collect label uid = some (.ok v)) : uid ∈ l.exchange.keys := by
  rw [collect] at h
  split at h
  · cases h
  · next hr =>
    rw [Exchange.receive] at hr
    split at hr
    · next a ha =>
      obtain ⟨l₁, l₂, hd, -⟩ := List.lookup_eq_some_iff.1 ha
      rw [Exchange.keys, List.map_append, hd]
      simp
    · split at hr <;> cases hr
  · cases h
  · cases h

/-- What a request leaves when it is submitted: its number is new, and it is on its way if it was sent. -/
theorem Link.submit_cases (l : Link φ σ) (r : Request) :
    (l.submit r).2.bench = l.bench ∧ (l.submit r).2.exchange.keys = l.exchange.keys ∧
      (l.submit r).2.exchange.nextUid = l.exchange.nextUid + 1 ∧
      (l.submit r).2.exchange.takesCalls = l.exchange.takesCalls ∧
      (l.submit r).2.exchange.takesReplies = l.exchange.takesReplies ∧
      ((∃ e, (l.submit r).1 = .error e ∧ (l.submit r).2.exchange.calls = l.exchange.calls) ∨
        ((l.submit r).1 = .ok l.exchange.nextUid ∧ l.exchange.takesCalls = true ∧
          l.exchange.nextUid ∈ (l.submit r).2.exchange.pending ∧
          (l.submit r).2.exchange.calls = l.exchange.calls ++ [(l.exchange.nextUid, r)])) := by
  unfold submit Exchange.issue Exchange.register Exchange.send
  dsimp only
  by_cases h : l.exchange.takesCalls = true
  · rw [if_pos h]
    exact ⟨rfl, rfl, rfl, rfl, rfl, .inr ⟨rfl, h, List.mem_cons_self, rfl⟩⟩
  · rw [if_neg h]
    exact ⟨rfl, rfl, rfl, rfl, rfl, .inl ⟨_, rfl, rfl⟩⟩

/-- The request of a number is on its way and its caller is registered, or it is not and what is to hold
after its answer holds if there was one.  No other request is on its way. -/
def Waits (l : Link φ σ) (uid : Nat) (asks : Request → Prop) (after : Bench φ σ → Prop) : Prop :=
  (∃ r, l.exchange.calls = [(uid, r)] ∧ asks r ∧ uid ∉ l.exchange.keys ∧
      uid ∈ l.exchange.pending ∧ l.exchange.takesReplies = true) ∨
    (l.exchange.calls = [] ∧ (uid ∈ l.exchange.keys → after l.bench))

/-- A worker that hangs up drops the requests that it did not take. -/
theorem Link.hangUpIfGone_cases (l : Link φ σ) :
    l.hangUpIfGone.bench = l.bench ∧ l.hangUpIfGone.exchange.keys = l.exchange.keys ∧
      l.hangUpIfGone.exchange.nextUid = l.exchange.nextUid ∧
      (l.hangUpIfGone.exchange = l.exchange ∨ l.hangUpIfGone.exchange.calls = []) := by
  rw [hangUpIfGone]
  split
  · exact ⟨rfl, rfl, rfl, .inl rfl⟩
  · exact ⟨rfl, rfl, rfl, .inr rfl⟩

/-- What a turn of the worker makes of a link. -/
inductive Link.Turned (E : Engine φ σ) (notified : Bool) (l l' : Link φ σ) : Prop where
  /-- A worker that is gone does nothing. -/
  | rests (hl : l.bench.life ≠ .serving) (hb : l'.bench = l.bench) (hc : l'.exchange.calls = [])
  /-- It serves the oldest request, and drops the others if it is gone then. -/
  | serves (q : Nat × Request) (rest : List (Nat × Request)) (hl : l.bench.life = .serving)
      (hq : l.exchange.calls = q :: rest) (hb : l'.bench = (l.bench.handle E q.2).2)
      (hc : l'.exchange.calls = rest ∨ l'.exchange.calls = [])
  | steps (hl : l.bench.life = .serving) (hn : l.exchange.calls = [])
      (hb : l'.bench = l.bench.step E notified) (hc : l'.exchange.calls = [])

theorem Link.turn_cases (E : Engine φ σ) (notified : Bool) (l : Link φ σ) :
    Turned E notified l (l.turn E notified) := by
  obtain ⟨hb, -, -, hx⟩ := (l.attend E notified).hangUpIfGone_cases
  by_cases hl : l.bench.life = .serving
  · cases hq : l.exchange.calls with
    | nil =>
      have ha : l.attend E notified = { l with bench := l.bench.step E notified } := by
        rw [attend, if_neg (not_not_intro hl), Exchange.take?, hq]
      rw [ha] at hb hx
      refine .steps hl hq ((congrArg bench (congrArg hangUpIfGone ha)).trans hb) ?_
      rw [turn, ha]
      rcases hx with hx | hx
      · rw [hx]
        exact hq
      · exact hx
    | cons q rest =>
      have ha : (l.attend E notified).bench = (l.bench.handle E q.2).2 ∧
          (l.attend E notified).exchange.calls = rest := by
        rw [attend, if_neg (not_not_intro hl), Exchange.take?, hq]
        dsimp only
        cases (l.bench.handle E q.2).1 <;> exact ⟨rfl, rfl⟩
      refine .serves q rest hl hq (hb.trans ha.1) ?_
      exact hx.imp_left fun hx => (congrArg Exchange.calls hx).trans ha.2
  · have ha : l.attend E notified = l := by
      rw [attend, if_pos hl]
    refine .rests hl (hb.trans (congrArg bench ha)) ?_
    rw [turn, ha, hangUpIfGone, if_neg hl]
    rfl

theorem Link.turn_move (E : Engine φ σ) (notified : Bool) (l : Link φ σ) :
    Bench.Move l.bench (l.turn E notified).bench := by
  cases l.turn_cases E notified with
  | rests _ hb _ =>
    rw [hb]
    exact .refl l.bench
  | serves q rest _ _ hb _ =>
    rw [hb]
    exact Bench.handle_move E l.bench q.2
  | steps _ _ hb _ =>
    rw [hb]
    exact Bench.step_move E notified l.bench

/-- A worker that crashed stays so. -/
theorem Link.turn_life (E : Engine φ σ) (notified : Bool) (l : Link φ σ)
    (h : (l.turn E notified).bench.life ≠ .crashed) : l.bench.life ≠ .crashed := by
  cases l.turn_cases E notified with
  | rests _ hb _ => rwa [hb] at h
  | serves q rest hl _ _ _ =>
    rw [hl]
    exact nofun
  | steps hl _ _ _ =>
    rw [hl]
    exact nofun

/-- What the dispatcher does to the session, apart from the region and the outlets. -/
inductive Session.Dispatched (s s' : Session φ σ ω) : Prop where
  | phase (p : PlayState) (hp : phases s.link.bench.reports = p :: phases s'.link.bench.reports)
      (ht : s'.transport = s.transport.enter p)
  | line (hp : phases s'.link.bench.reports = phases s.link.bench.reports)
      (ht : s'.transport = s.transport)
  | hangsUp (hl : s.link.bench.life ≠ .serving)
      (hp : phases s'.link.bench.reports = phases s.link.bench.reports)
      (ht : s'.transport = s.transport.disconnect)

theorem Session.dispatch_cases (s : Session φ σ ω) :
    Dispatched s s.dispatch ∧ s.dispatch.link.exchange = s.link.exchange ∧
      s.dispatch.link.bench.active? = s.link.bench.active? ∧
      s.dispatch.link.bench.life = s.link.bench.life := by
  rw [dispatch]
  split
  · next p es hr =>
    refine ⟨.phase p ?_ (Stage.change_transport _ p s.popReport.stage), rfl, rfl, rfl⟩
    show phases s.link.bench.reports = p :: phases s.link.bench.reports.tail
    rw [hr]
    rfl
  · next line es hr =>
    refine ⟨.line ?_ rfl, rfl, rfl, rfl⟩
    show phases s.link.bench.reports.tail = phases s.link.bench.reports
    rw [hr]
    rfl
  · split
    · next hg => exact ⟨.hangsUp (by simpa [workerGone] using hg) rfl rfl, rfl, rfl, rfl⟩
    · exact ⟨.line rfl rfl, rfl, rfl, rfl⟩

namespace Waits

variable {l l' : Link φ σ} {uid : Nat} {asks : Request → Prop} {after : Bench φ σ → Prop}

theorem weaken (h : Waits l uid asks after) {asks' : Request → Prop} {after' : Bench φ σ → Prop}
    (hr : ∀ r, asks r → asks' r) (ha : ∀ b, after b → after' b) : Waits l uid asks' after' :=
  h.imp (fun ⟨r, hc, hq, hrest⟩ => ⟨r, hc, hr r hq, hrest⟩) fun ⟨hc, hb⟩ => ⟨hc, fun hm => ha _ (hb hm)⟩

theorem congr (h : Waits l uid asks after) (hx : l'.exchange = l.exchange)
    (ha : after l.bench → after l'.bench) : Waits l' uid asks after := by
  rw [Waits]
  rw [hx]
  exact h.imp_right fun ⟨hc, hb⟩ => ⟨hc, fun hm => ha (hb hm)⟩

/-- The router hands out nothing under the number of a request that is on its way. -/
theorem route (h : Waits l uid asks after) : Waits l.route uid asks after := by
  rcases h with ⟨r, hc, hr, hn, hp, ht⟩ | ⟨hc, hafter⟩
  · refine .inl ⟨r, l.exchange.calls_route.trans hc, hr, fun hm => hn (l.exchange.keys_route hm), ?_⟩
    rw [Link.route, Exchange.route]
    cases hq : l.exchange.replies with
    | nil =>
      dsimp only
      rw [if_pos ht]
      exact ⟨hp, ht⟩
    | cons q rs =>
      obtain ⟨v, a⟩ := q
      dsimp only
      have hne : uid ≠ v := by
        rintro rfl
        exact hn (by rw [Exchange.keys, hq]; exact List.mem_cons_self)
      split
      · exact ⟨(List.mem_erase_of_ne hne).2 hp, ht⟩
      · exact ⟨hp, ht⟩
  · exact .inr ⟨l.exchange.calls_route.trans hc, fun hm => hafter (l.exchange.keys_route hm)⟩

/-- Who is told something has no request on its way. -/
theorem calls_of_collect (h : Waits l uid asks after) {label : String} {v : Except Error Value}
    (hv : l.collect label uid = some v) : l.exchange.calls = [] := by
  rcases h with ⟨r, -, -, hn, hp, -⟩ | ⟨hc, -⟩
  · have hnone : l.exchange.delivered.lookup uid = none := by
      refine List.lookup_eq_none_iff.2 ?_
      intro q hq
      rw [bne_iff_ne]
      rintro rfl
      exact hn (List.mem_map.2 ⟨q, List.mem_append_right _ hq, rfl⟩)
    have hw : l.collect label uid = none :=
      Link.collect_eq_none_iff.2 (Exchange.receive_of_pending hp hnone)
    rw [hv] at hw
    cases hw
  · exact hc

/-- A request that is on its way while one waits is the one that it waits for. -/
theorem asks_of_calls (h : Waits l uid asks after) {q : Nat × Request} {rest : List (Nat × Request)}
    (hq : l.exchange.calls = q :: rest) : asks q.2 ∧ rest = [] := by
  rcases h with ⟨r, hr, hasks, -⟩ | ⟨hr, -⟩
  · obtain ⟨rfl, rfl⟩ := List.cons.inj (hq.symm.trans hr)
    exact ⟨hasks, rfl⟩
  · exact absurd (hq.symm.trans hr) (List.cons_ne_nil _ _)

theorem hangUp (h : Waits l uid asks after) : Waits l.hangUpIfGone uid asks after := by
  obtain ⟨hb, hk, -, hx | hc⟩ := l.hangUpIfGone_cases
  · exact h.congr hx fun ha => hb ▸ ha
  · refine .inr ⟨hc, ?_⟩
    intro hm
    rw [hk] at hm
    rw [hb]
    rcases h with ⟨r, -, -, hn, -⟩ | ⟨-, hafter⟩
    · exact absurd hm hn
    · exact hafter hm

/-- The worker serves the request, or goes on with its performance. -/
theorem turn (h : Waits l uid asks after) (E : Engine φ σ) (notified : Bool)
    (hserve : ∀ (b : Bench φ σ) r, asks r → after (b.handle E r).2)
    (hstep : ∀ b : Bench φ σ, after b → after (b.step E notified)) :
    Waits (l.turn E notified) uid asks after := by
  refine Waits.hangUp ?_
  rw [Link.attend]
  split
  · exact h
  · rcases h with ⟨r, hr, hasks, -⟩ | ⟨hr, hafter⟩
    · simp only [Exchange.take?, hr]
      refine .inr ⟨?_, fun _ => hserve _ r hasks⟩
      cases (l.bench.handle E r).1 <;> rfl
    · simp only [Exchange.take?, hr]
      exact .inr ⟨hr, fun hm => hstep _ (hafter hm)⟩

end Waits

/-! ### The invariant -/

/-- What is on its way while the client is about something. -/
def Engaged (l : Link φ σ) : Client → Prop
  | .lifecycle (.awaitStart _ uid) => Waits l uid (fun r => ∃ n io, r = .start n io) fun _ => True
  | .lifecycle (.awaitReset uid) => Waits l uid (fun r => ∃ n, r = .reset n) fun b => b.active? = none
  | .lifecycle (.returnToStopped _) => l.exchange.calls = [] ∧ l.bench.active? = none
  | .call (.awaitReply _ uid) => Waits l uid (fun r => ∃ n op args, r = .call n op args) fun _ => True
  | _ => l.exchange.calls = []

/-- The client does not wait for an answer of the worker, and is not about to renew the region. -/
def Client.isAtEase : Client → Bool
  | .lifecycle (.awaitStart _ _) | .lifecycle (.awaitReset _) | .lifecycle (.returnToStopped _)
  | .call (.awaitReply _ _) => false
  | _ => true

namespace Engaged

variable {l l' : Link φ σ} {k k' : Client}

theorem awaitStart_iff {c uid : Nat} : Engaged l (.lifecycle (.awaitStart c uid)) ↔
    Waits l uid (fun r => ∃ n io, r = .start n io) fun _ => True := Iff.rfl

theorem awaitReset_iff {uid : Nat} : Engaged l (.lifecycle (.awaitReset uid)) ↔
    Waits l uid (fun r => ∃ n, r = .reset n) fun b => b.active? = none := Iff.rfl

theorem awaitReply_iff {op : Operation} {uid : Nat} : Engaged l (.call (.awaitReply op uid)) ↔
    Waits l uid (fun r => ∃ n op args, r = .call n op args) fun _ => True := Iff.rfl

theorem of_isAtEase (hk : k.isAtEase = true) (h : l.exchange.calls = []) : Engaged l k := by
  unfold Engaged
  split <;> first | exact h | cases hk

theorem calls_of_isAtEase (h : Engaged l k) (hk : k.isAtEase = true) : l.exchange.calls = [] := by
  unfold Engaged at h
  split at h <;> first | exact h | cases hk

theorem congr (h : Engaged l k) (hx : l'.exchange = l.exchange)
    (ha : l'.bench.active? = l.bench.active?) : Engaged l' k := by
  unfold Engaged at h ⊢
  split at h
  · exact h.congr hx id
  · exact h.congr hx fun hb => ha.trans hb
  · exact ⟨hx ▸ h.1, ha.trans h.2⟩
  · exact h.congr hx id
  · exact hx ▸ h

theorem route (h : Engaged l k) : Engaged l.route k := by
  unfold Engaged at h ⊢
  split at h
  · exact Waits.route h
  · exact Waits.route h
  · exact ⟨l.exchange.calls_route.trans h.1, h.2⟩
  · exact Waits.route h
  · exact l.exchange.calls_route.trans h

end Engaged

/-- A turn of the worker keeps the client engaged: a reset leaves no performance behind. -/
theorem Engaged.turn {l : Link φ σ} {k : Client} (h : Engaged l k) (E : Engine φ σ)
    (notified : Bool) : Engaged (l.turn E notified) k := by
  have hnil : l.exchange.calls = [] → (l.turn E notified).exchange.calls = [] := by
    intro hr
    cases l.turn_cases E notified with
    | rests _ _ hc => exact hc
    | serves q rest _ hq _ _ =>
      rw [hr] at hq
      cases hq
    | steps _ _ _ hc => exact hc
  unfold Engaged at h ⊢
  split at h
  · exact Waits.turn h E notified (fun _ _ _ => trivial) fun _ _ => trivial
  · refine Waits.turn h E notified ?_ ?_
    · rintro b r ⟨n, rfl⟩
      exact b.handle_reset_idle E n
    · intro b hb
      rw [Bench.step_of_idle E notified hb]
      exact hb
  · refine ⟨hnil h.1, ?_⟩
    cases l.turn_cases E notified with
    | rests _ hb _ =>
      rw [hb]
      exact h.2
    | serves q rest _ hq _ _ =>
      rw [h.1] at hq
      cases hq
    | steps _ _ hb _ =>
      rw [hb, Bench.step_of_idle E notified h.2]
      exact h.2
  · exact Waits.turn h E notified (fun _ _ _ => trivial) fun _ _ => trivial
  · exact hnil h

/-- What a turn of the worker posts is the reply to a request that was on its way. -/
theorem Link.turn_exchange (E : Engine φ σ) (notified : Bool) (l : Link φ σ) :
    (∀ v ∈ (l.turn E notified).exchange.keys,
      v ∈ l.exchange.keys ∨ ∃ q ∈ l.exchange.calls, q.1 = v) ∧
    (∀ q ∈ (l.turn E notified).exchange.calls, q ∈ l.exchange.calls) ∧
    (l.turn E notified).exchange.nextUid = l.exchange.nextUid := by
  have hattend : (∀ v ∈ (l.attend E notified).exchange.keys,
      v ∈ l.exchange.keys ∨ ∃ q ∈ l.exchange.calls, q.1 = v) ∧
      (∀ q ∈ (l.attend E notified).exchange.calls, q ∈ l.exchange.calls) ∧
      (l.attend E notified).exchange.nextUid = l.exchange.nextUid := by
    rw [attend]
    split
    · exact ⟨fun v hv => .inl hv, fun q hq => hq, rfl⟩
    · rw [Exchange.take?]
      cases hc : l.exchange.calls with
      | nil => exact ⟨fun v hv => .inl hv, fun q hq => hc ▸ hq, rfl⟩
      | cons q cs =>
        obtain ⟨uid, r⟩ := q
        dsimp only
        cases (l.bench.handle E r).1 with
        | none => exact ⟨fun v hv => .inl hv, fun q hq => List.mem_cons_of_mem _ hq, rfl⟩
        | some a =>
          refine ⟨?_, fun q hq => List.mem_cons_of_mem _ hq, rfl⟩
          intro v hv
          have hperm := (l.exchange.perm_post uid a).map Prod.fst
          rcases List.mem_cons.1 (hperm.mem_iff.1 hv) with rfl | hv
          · exact .inr ⟨_, List.mem_cons_self, rfl⟩
          · exact .inl hv
  obtain ⟨-, hk, hn, hc⟩ := (l.attend E notified).hangUpIfGone_cases
  refine ⟨fun v hv => hattend.1 v (hk ▸ hv), ?_, hn.trans hattend.2.2⟩
  intro q hq
  rcases hc with hc | hc
  · rw [turn, hc] at hq
    exact hattend.2.1 q hq
  · rw [turn, hc] at hq
    cases hq

/-- A worker that hangs up stops posting replies too. -/
theorem Link.turn_open (E : Engine φ σ) (notified : Bool) (l : Link φ σ)
    (h : l.exchange.takesCalls = true → l.exchange.takesReplies = true) :
    (l.turn E notified).exchange.takesCalls = true →
      (l.turn E notified).exchange.takesReplies = true := by
  have hattend : (l.attend E notified).exchange.takesCalls = l.exchange.takesCalls ∧
      (l.attend E notified).exchange.takesReplies = l.exchange.takesReplies := by
    rw [attend, Exchange.take?]
    split
    · exact ⟨rfl, rfl⟩
    · cases l.exchange.calls with
      | nil => exact ⟨rfl, rfl⟩
      | cons q cs =>
        dsimp only
        cases (l.bench.handle E q.2).1 <;> exact ⟨rfl, rfl⟩
  rw [turn, hangUpIfGone]
  split
  · rw [hattend.1, hattend.2]
    exact h
  · exact nofun

/-- The numbers in use were given out, and what is on its way is what the client is about. -/
structure Orderly (l : Link φ σ) (k : Client) : Prop where
  issued : ∀ v ∈ l.exchange.keys, v < l.exchange.nextUid
  sent : ∀ q ∈ l.exchange.calls, q.1 < l.exchange.nextUid
  open_ : l.exchange.takesCalls = true → l.exchange.takesReplies = true
  engaged : Engaged l k

namespace Orderly

variable {l l' : Link φ σ} {k k' : Client}

/-- Who changes nothing in the exchange and not what is performed keeps the invariant. -/
theorem congr (h : Orderly l k) (hx : l'.exchange = l.exchange)
    (ha : l'.bench.active? = l.bench.active?) : Orderly l' k := by
  obtain ⟨hi, hs, ho, he⟩ := h
  refine ⟨?_, ?_, ?_, ?_⟩
  · rw [hx]
    exact hi
  · rw [hx]
    exact hs
  · rw [hx]
    exact ho
  · exact he.congr hx ha

/-- A client at ease can turn to something else that is at ease. -/
theorem ease (h : Orderly l k) (hk : k.isAtEase = true) (hk' : k'.isAtEase = true) :
    Orderly l k' :=
  ⟨h.issued, h.sent, h.open_, .of_isAtEase hk' (h.engaged.calls_of_isAtEase hk)⟩

/-- A client at ease submits a request and waits, or finds that it cannot be sent. -/
theorem submit (h : Orderly l k) (hk : k.isAtEase = true) (r : Request)
    (hk' : (∃ e, (l.submit r).1 = .error e) → k'.isAtEase = true)
    (hw : (l.submit r).1 = .ok l.exchange.nextUid →
      Waits (l.submit r).2 l.exchange.nextUid (· = r) (fun _ => False) →
        Engaged (l.submit r).2 k') :
    Orderly (l.submit r).2 k' := by
  have hnil := h.engaged.calls_of_isAtEase hk
  obtain ⟨-, hkeys, hnext, hcalls, hreplies, hc⟩ := l.submit_cases r
  have hissued : ∀ v ∈ (l.submit r).2.exchange.keys, v < (l.submit r).2.exchange.nextUid := by
    intro v hv
    rw [hkeys] at hv
    rw [hnext]
    exact Nat.lt_succ_of_lt (h.issued v hv)
  have hopen : (l.submit r).2.exchange.takesCalls = true →
      (l.submit r).2.exchange.takesReplies = true := by
    rw [hcalls, hreplies]
    exact h.open_
  rcases hc with ⟨e, he, hc⟩ | ⟨hok, ht, hp, hc⟩
  · have hc' : (l.submit r).2.exchange.calls = [] := hc.trans hnil
    refine ⟨hissued, ?_, hopen, .of_isAtEase (hk' ⟨e, he⟩) hc'⟩
    intro q hq
    have hq' : q ∈ (l.submit r).2.exchange.calls := hq
    rw [hc'] at hq'
    cases hq'
  · rw [hnil, List.nil_append] at hc
    refine ⟨hissued, ?_, hopen,
      hw hok (.inl ⟨r, hc, rfl, ?_, hp, hreplies.trans (h.open_ ht)⟩)⟩
    · intro q hq
      have hq' : q ∈ (l.submit r).2.exchange.calls := hq
      rw [hc] at hq'
      obtain rfl := List.mem_singleton.1 hq'
      show l.exchange.nextUid < (l.submit r).2.exchange.nextUid
      rw [hnext]
      exact Nat.lt_succ_self _
    · intro hm
      rw [hkeys] at hm
      exact Nat.lt_irrefl _ (h.issued _ hm)

variable {s s' : Session φ σ ω}

/-- A step of a conversation keeps the invariant. -/
theorem conversed {task : Lifecycle} (h : Orderly s.link (.lifecycle task))
    (hc : Conversed s task k' s') : Orderly s'.link k' := by
  cases hc with
  | arms hn ht => exact (h.ease rfl rfl).congr rfl rfl
  | cannotArm => exact h.ease rfl rfl
  | asksStart hs =>
    refine h.submit rfl _ (fun ⟨e, he⟩ => by rw [hs] at he; cases he) ?_
    intro hok hw
    obtain rfl := Except.ok.inj (hs.symm.trans hok)
    exact Engaged.awaitStart_iff.2 (hw.weaken (fun r hr => ⟨_, _, hr⟩) fun _ => False.elim)
  | cannotAskStart hs =>
    exact h.submit rfl _ (fun _ => rfl) fun hok _ => by rw [hs] at hok; cases hok
  | accepted hv _ =>
    exact ⟨h.issued, h.sent, h.open_, (Engaged.awaitStart_iff.1 h.engaged).calls_of_collect hv⟩
  | refused hv =>
    exact ⟨h.issued, h.sent, h.open_, (Engaged.awaitStart_iff.1 h.engaged).calls_of_collect hv⟩
  | disarms => exact (h.ease rfl rfl).congr rfl rfl
  | started _ => exact (h.ease rfl rfl).congr rfl rfl
  | lost _ => exact h.ease rfl rfl
  | hasToStop => exact h.ease rfl rfl
  | needsNoStop => exact h.ease rfl rfl
  | asksStop _ => exact (h.ease rfl rfl).congr rfl rfl
  | nothingToStop => exact h.ease rfl rfl
  | cannotStop => exact h.ease rfl rfl
  | stopped => exact (h.ease rfl rfl).congr rfl rfl
  | hasStopped => exact (h.ease rfl rfl).congr rfl rfl
  | willNotStop => exact h.ease rfl rfl
  | cannotReset => exact h.ease rfl rfl
  | asksReset hs =>
    refine h.submit rfl _ (fun ⟨e, he⟩ => by rw [hs] at he; cases he) ?_
    intro hok hw
    obtain rfl := Except.ok.inj (hs.symm.trans hok)
    exact Engaged.awaitReset_iff.2 (hw.weaken (fun r hr => ⟨_, hr⟩) fun _ => False.elim)
  | cannotAskReset hs =>
    exact h.submit rfl _ (fun _ => rfl) fun hok _ => by rw [hs] at hok; cases hok
  | hasReset hv =>
    -- the reply has come, so the worker has served the reset
    have hw := Engaged.awaitReset_iff.1 h.engaged
    have hnil := hw.calls_of_collect hv
    refine ⟨h.issued, h.sent, h.open_, hnil, ?_⟩
    rcases hw with ⟨r, hc, -⟩ | ⟨-, hidle⟩
    · rw [hnil] at hc
      cases hc
    · exact hidle (Link.mem_keys_of_collect hv)
  | hasNotReset hv =>
    exact ⟨h.issued, h.sent, h.open_, (Engaged.awaitReset_iff.1 h.engaged).calls_of_collect hv⟩
  | renews =>
    have hw : s.link.exchange.calls = [] ∧ s.link.bench.active? = none := h.engaged
    exact ⟨h.issued, h.sent, h.open_, hw.1⟩

theorem invoked {task : Invocation} (h : Orderly s.link (.call task)) (hc : Invoked s task k' s') :
    Orderly s'.link k' := by
  cases hc with
  | passes ht hk hl =>
    refine h.ease ?_ ?_
    · cases task with
      | awaitReply op uid => exact absurd rfl (ht op uid)
      | _ => rfl
    · cases k' with
      | free => rfl
      | lifecycle t => exact absurd rfl (hl t)
      | call t =>
        cases t with
        | awaitReply op uid => exact absurd rfl (hk op uid)
        | _ => rfl
  | asks hs =>
    refine h.submit rfl _ (fun ⟨e, he⟩ => by rw [hs] at he; cases he) ?_
    intro hok hw
    obtain rfl := Except.ok.inj (hs.symm.trans hok)
    exact Engaged.awaitReply_iff.2 (hw.weaken (fun r hr => ⟨_, _, _, hr⟩) fun _ => False.elim)
  | cannotAsk hs =>
    exact h.submit rfl _ (fun _ => rfl) fun hok _ => by rw [hs] at hok; cases hok
  | answered hv =>
    exact ⟨h.issued, h.sent, h.open_, (Engaged.awaitReply_iff.1 h.engaged).calls_of_collect hv⟩

theorem worker (h : Orderly l k) (E : Engine φ σ) (notified : Bool) :
    Orderly (l.turn E notified) k := by
  obtain ⟨hkeys, hcalls, hnext⟩ := l.turn_exchange E notified
  refine ⟨?_, ?_, l.turn_open E notified h.open_, h.engaged.turn E notified⟩
  · intro v hv
    show v < (l.turn E notified).exchange.nextUid
    rw [hnext]
    rcases hkeys v hv with hv | ⟨q, hq, rfl⟩
    · exact h.issued v hv
    · exact h.sent q hq
  · intro q hq
    show q.1 < (l.turn E notified).exchange.nextUid
    rw [hnext]
    exact h.sent q (hcalls q hq)
theorem router (h : Orderly l k) : Orderly l.route k := by
  refine ⟨?_, ?_, ?_, h.engaged.route⟩
  · intro v hv
    show v < l.exchange.route.nextUid
    rw [Exchange.nextUid_route]
    exact h.issued v (l.exchange.keys_route hv)
  · intro q hq
    show q.1 < l.exchange.route.nextUid
    rw [Exchange.nextUid_route]
    exact h.sent q (l.exchange.calls_route ▸ hq)
  · have ho := h.open_
    show l.exchange.route.takesCalls = true → l.exchange.route.takesReplies = true
    rw [Exchange.route]
    split
    · split <;> exact ho
    · split <;> exact ho

theorem dispatcher (h : Orderly s.link k) : Orderly s.dispatch.link k := by
  obtain ⟨-, hx, ha, -⟩ := s.dispatch_cases
  exact h.congr hx ha

/-- **Every step keeps the invariant.** -/
theorem step {E : Engine φ σ} {u v : Ensemble φ σ ω} (h : Orderly u.session.link u.client)
    (hs : Ensemble.Step E u v) : Orderly v.session.link v.client := by
  rcases hs with hs | hs
  · cases hs with
    | start => exact h.ease rfl rfl
    | stop => exact h.ease rfl rfl
    | reset => exact h.ease rfl rfl
    | call op args => exact h.ease rfl rfl
    | pause => exact h.congr rfl rfl
    | resume => exact h.congr rfl rfl
  · cases hs with
    | turn ht => exact h.conversed (Lifecycle.turn_cases ht)
    | ends ht => exact h.conversed (Lifecycle.ends_cases ht)
    | invoke expired ht => exact h.invoked (Invocation.turn_cases ht)
    | returns expired ht => exact h.invoked (Invocation.ends_cases ht)
    | worker notified => exact h.worker E notified
    | router => exact h.router
    | dispatcher => exact h.dispatcher
    | device => exact h.congr rfl rfl

end Orderly

/-! ### The beginning -/

/-- Handing out everything that was posted is some steps of the router. -/
theorem Orderly.routeAll {l : Link φ σ} {k : Client} (h : Orderly l k) :
    Orderly l.routeAll k ∧ l.routeAll.bench = l.bench := by
  rw [Link.routeAll]
  generalize List.range (l.exchange.replies.length + 1) = ns
  induction ns generalizing l with
  | nil => exact ⟨h, rfl⟩
  | cons n ns ih => exact ih h.router

/-- The first request is served at once, and then none is on its way. -/
theorem Orderly.first (E : Engine φ σ) {b : Bench φ σ} (hb : b.life = .serving) (label : String)
    (r : Request) :
    Orderly ((({ bench := b } : Link φ σ).request E label r).2) .free ∧
      (({ bench := b } : Link φ σ).request E label r).2.bench = (b.handle E r).2 := by
  let l : Link φ σ :=
    { bench := b, exchange := { nextUid := 2, pending := [1], calls := [(1, r)] } }
  have hreq : (({ bench := b } : Link φ σ).request E label r).2 = (l.serve E).routeAll := rfl
  obtain ⟨hkeys, -, hnext⟩ := l.turn_exchange E false
  obtain ⟨hnil, hbench⟩ : (l.turn E false).exchange.calls = [] ∧
      (l.turn E false).bench = (b.handle E r).2 := by
    cases l.turn_cases E false with
    | rests hl _ _ => exact absurd hb hl
    | serves q rest _ hq hbench hc =>
      cases hq
      exact ⟨hc.elim id id, hbench⟩
    | steps _ hn _ _ => cases hn
  have hserved : Orderly (l.serve E) .free := by
    refine ⟨?_, ?_, l.turn_open E false fun _ => rfl, hnil⟩
    · intro v hv
      rcases hkeys v hv with hv | ⟨q, hq, rfl⟩
      · cases hv
      · obtain rfl := List.mem_singleton.1 hq
        rw [Link.serve, hnext]
        exact Nat.lt_succ_self 1
    · intro q hq
      rw [Link.serve, hnil] at hq
      cases hq
  rw [hreq]
  exact ⟨hserved.routeAll.1, hserved.routeAll.2.trans hbench⟩

/-- What a session is created from: a worker that has served one request, on fresh memory. -/
theorem Session.create_cases {E : Engine φ σ} {factory : φ} {config : Config}
    {device : Option (Render.Device ω)} {log : Listener ω} {world : ω} {s : Session φ σ ω}
    (h : create E factory config device log world = .ok s) :
    ∃ (setup : Setup) (samples messages : Nat),
      Orderly s.link .free ∧
      s.link.bench = (({ factory := factory, memory := (Memory.allocIo {} samples messages).2 } :
        Bench φ σ).handle E (.build setup)).2 ∧
      s.transport = { io := (Memory.allocIo {} samples messages).1 } ∧
      s.outlets.device = device := by
  rw [create] at h
  split at h
  · cases h
  · dsimp only [Link.build] at h
    split at h
    · cases h
    · next hr =>
      cases h
      let memory := (Memory.allocIo {} config.buffers.ringSamples config.buffers.midiCapacity).2
      obtain ⟨ho, hb⟩ := Orderly.first E (b := { factory := factory, memory := memory }) rfl
        Link.buildLabel (.build ⟨config.engine, []⟩)
      have hl := congrArg Prod.snd hr
      dsimp only at hl
      rw [hl] at ho hb
      exact ⟨_, _, _, ho, hb, rfl, rfl⟩

/-- Nothing is performed, and no phase is on its way. -/
structure Bench.IsSettled (b : Bench φ σ) : Prop where
  silent : phases b.reports = []
  idle : b.active? = none

theorem Session.create_settled {E : Engine φ σ} {factory : φ} {config : Config}
    {device : Option (Render.Device ω)} {log : Listener ω} {world : ω} {s : Session φ σ ω}
    (h : create E factory config device log world = .ok s) : s.link.bench.IsSettled := by
  obtain ⟨setup, samples, messages, -, hb, -, -⟩ := create_cases h
  let b₀ : Bench φ σ := { factory := factory, memory := (Memory.allocIo {} samples messages).2 }
  have hidle : s.link.bench.active? = none := by
    rw [hb, Bench.handle, Bench.respond_active?]
    exact (Bench.build_move E setup b₀).2
  have hm := Bench.handle_move E b₀ (.build setup)
  rw [← hb] at hm
  refine ⟨?_, hidle⟩
  cases hm with
  | keeps _ hp => exact hp
  | begins a _ ha _ =>
    rw [hidle] at ha
    cases ha
  | ends a ha _ _ => cases ha
  | loses _ _ hp => exact hp

/-- **The invariant holds whatever happens.** -/
theorem orderly_of_reachable {E : Engine φ σ} {device : Option (Render.Device ω)}
    {u : Ensemble φ σ ω} (h : Ensemble.Reachable E device u) :
    Orderly u.session.link u.client := by
  refine h.invariant (P := fun u => Orderly u.session.link u.client) ?_ fun _ _ _ hu hs => hu.step hs
  intro factory config log world s hs
  obtain ⟨setup, samples, messages, ho, -⟩ := Session.create_cases hs
  exact ho

end SynthControl
