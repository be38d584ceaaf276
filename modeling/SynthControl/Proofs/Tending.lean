import SynthControl.Proofs.Matching

/-!
# Whoever waits is tended to

A request that was sent does not get lost while the worker is there: it waits in the queue, or the worker has
answered it, and an answer is on its way until it is handed out.

* `Bench.life_of_unanswered` — a worker that leaves a request unanswered is gone;
* `Crowd.Tended`, `Crowd.tended_of_reachable` — **the request of whoever waits is in the queue or was answered**, and
  its answer travels or was handed out;
* `Crowd.gone_cases` — **who is turned away was never answered**, and the worker is gone.
-/

namespace SynthControl

open Relation

variable {φ σ ι : Type}

/-- A worker that leaves a request unanswered is gone. -/
theorem Bench.life_of_unanswered {E : Engine φ σ} {b : Bench φ σ} {r : Request} (h : (b.handle E r).1 = none) :
    (b.handle E r).2.life ≠ .serving := by
  have hrespond : ∀ x : Attempt Value × Bench φ σ, (respond E x).1 = none → (respond E x).2.life ≠ .serving := by
    rintro ⟨v, b⟩ hx
    cases v with
    | ok v => cases hx
    | failed e => cases hx
    | crashed => exact nofun
  cases r with
  | build setup => exact hrespond _ h
  | start number io => exact hrespond _ h
  | reset number => exact hrespond _ h
  | call number op args => exact hrespond _ h
  | shutdown =>
    show (b.leave E).life ≠ .serving
    rw [leave]
    split
    · next hl =>
      rw [hl]
      exact nofun
    · exact nofun

namespace Crowd

/-- What the worker and the queues hold for whoever waits. -/
structure Tended (c : Crowd φ σ ι) : Prop where
  queued : ∀ i, (c.caller i).progress = .waiting →
    ((c.caller i).uid, (c.caller i).request) ∈ c.link.exchange.calls ∨
      (∃ a, ((c.caller i).uid, (c.caller i).request, a) ∈ c.served) ∨ c.link.bench.life ≠ .serving
  posted : ∀ i, (c.caller i).progress = .waiting → ∀ s ∈ c.served, s.1 = (c.caller i).uid →
    s.1 ∈ (c.link.exchange.replies ++ c.link.exchange.delivered).map Prod.fst

/-- What a step of a caller leaves alone; it waits afterwards if it has just sent its request. -/
theorem turn_leaves {l l' : Link φ σ} {k k' : Caller} (h : k.turn l = some (k', l')) :
    l'.bench = l.bench ∧ l'.exchange.replies = l.exchange.replies ∧ l'.exchange.delivered = l.exchange.delivered ∧
      (∀ q ∈ l.exchange.calls, q ∈ l'.exchange.calls) ∧
      (k'.progress = .waiting → k.progress = .registered ∧ k'.uid = k.uid ∧
        (k'.uid, k'.request) ∈ l'.exchange.calls) := by
  rw [Caller.turn] at h
  split at h
  · cases h
    exact ⟨rfl, rfl, rfl, fun _ => id, by rintro ⟨⟩⟩
  · cases h
    exact ⟨rfl, rfl, rfl, fun _ => id, by rintro ⟨⟩⟩
  · next hk =>
    rw [Exchange.send] at h
    by_cases hs : l.exchange.takesCalls = true
    · rw [if_pos hs] at h
      cases h
      exact ⟨rfl, rfl, rfl, fun _ => List.mem_append_left _, fun _ => ⟨hk, rfl, by simp⟩⟩
    · rw [if_neg hs] at h
      cases h
      exact ⟨rfl, rfl, rfl, fun _ => id, by rintro ⟨⟩⟩
  · cases h
    exact ⟨rfl, rfl, rfl, fun _ => id, by rintro ⟨⟩⟩
  · obtain ⟨r, -, hr⟩ := Option.map_eq_some_iff.1 h
    cases hr
    exact ⟨rfl, rfl, rfl, fun _ => id, by rintro ⟨⟩⟩
  · cases h

section

variable {c : Crowd φ σ ι} {E : Engine φ σ}

/-- Only what the worker and the queues hold changes, and there is no less of it. -/
theorem Tended.mono (h : Tended c) {l : Link φ σ} (hcalls : ∀ q ∈ c.link.exchange.calls, q ∈ l.exchange.calls)
    (hlife : l.bench.life = c.link.bench.life) (hreplies : l.exchange.replies = c.link.exchange.replies)
    (hdelivered : l.exchange.delivered = c.link.exchange.delivered) : Tended { c with link := l } where
  queued i hi := (h.queued i hi).imp (hcalls _) (Or.imp_right fun hl => by rwa [hlife])
  posted i hi s hs hu := by
    rw [hreplies, hdelivered]
    exact h.posted i hi s hs hu

theorem Tended.call [DecidableEq ι] (h : Tended c) (hsound : Sound c) {i : ι} {k : Caller} {l : Link φ σ}
    (ht : (c.caller i).turn c.link = some (k, l)) :
    Tended { c with link := l, caller := Function.update c.caller i k } := by
  obtain ⟨hbench, hreplies, hdelivered, hcalls, hwaits⟩ := turn_leaves ht
  have hmono := h.mono hcalls (congrArg Bench.life hbench) hreplies hdelivered
  constructor
  · intro j hj
    by_cases hij : j = i
    · subst hij
      simp only [Function.update_self] at hj ⊢
      exact .inl (hwaits hj).2.2
    · simp only [Function.update_of_ne hij] at hj ⊢
      exact hmono.queued j hj
  · intro j hj s hs hu
    by_cases hij : j = i
    · subst hij
      simp only [Function.update_self] at hj hu
      obtain ⟨hk, huid, -⟩ := hwaits hj
      -- it has only just sent its request, which the worker has not seen
      have hasked := hsound.asked (by rw [hk]; exact nofun) hs (hu.trans huid)
      rw [Asked, hk] at hasked
      rcases hasked.2.2 with hp | ⟨_, hp⟩ <;> cases hp
    · simp only [Function.update_of_ne hij] at hj hu
      exact hmono.posted j hj s hs hu

theorem Tended.attend (h : Tended c) (notified : Bool) (hl : c.link.bench.life = .serving) :
    Tended { c with
      link := c.link.attend E notified
      served := c.served ++ (c.link.answer? E).toList } := by
  rw [Link.attend, Link.answer?, Exchange.take?, if_neg (not_not_intro hl)]
  cases hc : c.link.exchange.calls with
  | nil =>
    simp only [Option.toList_none, List.append_nil]
    refine ⟨fun i hi => .inr (.inl ?_), h.posted⟩
    rcases h.queued i hi with hq | hs | hx
    · rw [hc] at hq
      cases hq
    · exact hs
    · exact absurd hl hx
  | cons q cs =>
    obtain ⟨uid, r⟩ := q
    have hqueued := h.queued
    rw [hc] at hqueued
    rcases hh : c.link.bench.handle E r with ⟨answer, b⟩
    cases answer with
    | none =>
      simp only [hh, Option.map_none, Option.toList_none, List.append_nil]
      have hgone : b.life ≠ .serving := by
        have := Bench.life_of_unanswered (congrArg Prod.fst hh)
        rwa [hh] at this
      exact ⟨fun _ _ => .inr (.inr hgone), h.posted⟩
    | some a =>
      simp only [hh, Option.map_some, Option.toList_some]
      refine ⟨fun i hi => ?_, fun i hi s hs hu => ?_⟩
      · rcases hqueued i hi with hq | ⟨a', hs⟩ | hx
        · rcases List.mem_cons.1 hq with heq | hq
          · exact .inr (.inl ⟨a, List.mem_append_right _ (by cases heq; exact List.mem_singleton_self _)⟩)
          · exact .inl hq
        · exact .inr (.inl ⟨a', List.mem_append_left _ hs⟩)
        · exact absurd hl hx
      · have hperm := (c.link.exchange.perm_post uid a).map Prod.fst
        refine hperm.mem_iff.2 ?_
        rcases List.mem_append.1 hs with hs | hs
        · exact List.mem_cons_of_mem _ (h.posted i hi s hs hu)
        · obtain rfl := List.mem_singleton.1 hs
          exact List.mem_cons_self

theorem Tended.hangUp (h : Tended c) (hl : c.link.bench.life ≠ .serving) :
    Tended { c with link.exchange := c.link.exchange.hangUp } where
  queued _ _ := .inr (.inr hl)
  posted := h.posted

theorem Tended.route (h : Tended c) (hsound : Sound c) (hr : c.link.exchange.routing = true) :
    Tended { c with link := c.link.route } := by
  have hposted := h.posted
  rw [Link.route, Exchange.route]
  cases hq : c.link.exchange.replies with
  | nil =>
    rw [hq] at hposted
    dsimp only
    split
    · exact h
    · exact ⟨h.queued, hposted⟩
  | cons q rs =>
    obtain ⟨uid, a⟩ := q
    rw [hq] at hposted
    dsimp only
    split
    · have hperm : (rs ++ (uid, a) :: c.link.exchange.delivered).Perm
          ((uid, a) :: rs ++ c.link.exchange.delivered) := List.perm_middle
      exact ⟨h.queued, fun i hi s hs hu => (hperm.map Prod.fst).mem_iff.2 (hposted i hi s hs hu)⟩
    · next hp =>
      refine ⟨h.queued, fun i hi s hs hu => ?_⟩
      rcases List.mem_cons.1 (hposted i hi s hs hu) with heq | hmem
      · -- who waits is on the register until its reply was handed out
        obtain rfl : uid = (c.caller i).uid := heq.symm.trans hu
        rcases hsound.kept i (.inr hi) with hk | hk | hk
        · exact absurd hk hp
        · rw [hu, List.map_append]
          exact List.mem_append_right _ hk
        · rw [hr] at hk
          cases hk
      · exact hmem

/-- **The request of whoever waits is tended to, whatever happens.** -/
theorem tended_of_reachable [DecidableEq ι] (h : Reachable E c) : Tended c := by
  obtain ⟨factory, memory, ask, hrun⟩ := h
  induction hrun with
  | refl => exact ⟨nofun, nofun⟩
  | tail hrun hstep ih =>
    have hsound := sound_of_reachable ⟨factory, memory, ask, hrun⟩
    cases hstep with
    | call i ht => exact ih.call hsound ht
    | dismiss =>
      refine ih.mono (fun q hq => ?_) rfl ?_ ?_
      all_goals
        rw [Exchange.send]
        split
      · exact List.mem_append_left _ hq
      · exact hq
      all_goals rfl
    | attend notified hl => exact ih.attend notified hl
    | hangUp hl => exact ih.hangUp hl
    | close ht => exact ⟨ih.queued, ih.posted⟩
    | route hr => exact ih.route hsound hr
    | others m es => exact ⟨ih.queued, ih.posted⟩

/-- **Who is turned away was never answered**, and the worker is gone. -/
theorem gone_cases [DecidableEq ι] (h : Reachable E c) {i : ι} (hi : (c.caller i).progress = .waiting)
    (hg : c.link.exchange.receive (c.caller i).uid = .gone) :
    c.link.exchange.takesCalls = false ∧ ∀ s ∈ c.served, s.1 ≠ (c.caller i).uid := by
  have hsound := sound_of_reachable h
  have hoff := Exchange.not_mem_of_gone hg
  have hrouting := ((hsound.kept i (.inr hi)).resolve_left hoff.1).resolve_left hoff.2
  obtain ⟨hreplies, hnil⟩ := hsound.stopped hrouting
  refine ⟨hsound.closed hreplies, fun s hs hu => ?_⟩
  have hposted := (tended_of_reachable h).posted i hi s hs hu
  rw [hnil, List.nil_append, hu] at hposted
  exact hoff.2 hposted

end

end Crowd
end SynthControl
