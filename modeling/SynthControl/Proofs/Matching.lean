import SynthControl.Proofs.Crowd
import SynthControl.Sine.Call

/-!
# Replies match requests

Callers, worker and router race with each other; what keeps them together is the register.  A caller that
waits is on it, or its reply was handed out, or the router has stopped; a reply that travels or was handed
out is the one answer that the worker gave to the one request of that number.

* `Numbered` — callers have different numbers;
* `Sound` — the invariant: who is on the register, what travels, and what was answered;
* `Sound.issue`, `Sound.register`, `Sound.send`, … — each step of a caller keeps it;
* `Sound.attend`, `Sound.hangUp`, `Sound.close`, `Sound.route` — so do the steps of worker and router;
* `sound_of_reachable` — **the invariant holds whatever happens**;
* `replies_match` — **every answer is the answer to one's own request**, and nobody is left waiting.
-/

namespace SynthControl

/-- What a caller is told is its reply, or that it was turned away. -/
theorem Link.collect_cases {φ σ : Type} {l : Link φ σ} {label : String} {uid : Nat}
    {r : Except Error Value} (h : l.collect label uid = some r) :
    (∃ a, l.exchange.receive uid = .received a ∧ r = outcome label a) ∨
      l.exchange.receive uid = .gone ∧ r = .error .disconnected := by
  rw [collect] at h
  split at h
  · cases h
  · next v hv => exact .inl ⟨.ok v, hv, (Option.some.inj h).symm⟩
  · next e he => exact .inl ⟨.error e, he, (Option.some.inj h).symm⟩
  · next hg => exact .inr ⟨hg, (Option.some.inj h).symm⟩

/-- What is handed to a caller that looks for its reply is a reply of its number. -/
theorem Exchange.mem_of_receive {ρ α : Type} {x : Exchange ρ α} {uid : Nat} {a : α}
    (h : x.receive uid = .received a) : (uid, a) ∈ x.delivered := by
  rw [receive] at h
  cases hl : x.delivered.lookup uid with
  | none =>
    rw [hl] at h
    dsimp only at h
    split at h <;> cases h
  | some b =>
    rw [hl] at h
    obtain ⟨l₁, l₂, hd, -⟩ := List.lookup_eq_some_iff.1 hl
    cases h
    rw [hd]
    simp

/-- Who waits in vain is on the register. -/
theorem Exchange.mem_of_waiting {ρ α : Type} {x : Exchange ρ α} {uid : Nat}
    (h : x.receive uid = .waiting) : uid ∈ x.pending := by
  rw [receive] at h
  split at h
  · cases h
  · split at h
    · next hp => exact hp
    · cases h

/-- Who was turned away is not on the register, and was handed nothing. -/
theorem Exchange.not_mem_of_gone {ρ α : Type} {x : Exchange ρ α} {uid : Nat}
    (h : x.receive uid = .gone) : uid ∉ x.pending ∧ uid ∉ x.delivered.map Prod.fst := by
  rw [receive] at h
  cases hl : x.delivered.lookup uid with
  | some b => simp [hl] at h
  | none =>
    rw [hl] at h
    dsimp only at h
    refine ⟨fun hp => by simp [hp] at h, ?_⟩
    intro hm
    obtain ⟨q, hq, rfl⟩ := List.mem_map.1 hm
    have := List.lookup_eq_none_iff.1 hl q hq
    simp at this

namespace Crowd

variable {φ σ ι : Type}

/-! ### The invariant -/

def Has (k : Caller) (uid : Nat) : Prop := k.progress ≠ .away ∧ k.uid = uid

/-- Callers have different numbers, none of which is zero or will be given out later. -/
structure Numbered (next : Nat) (caller : ι → Caller) : Prop where
  pos : 0 < next
  bound : ∀ i uid, Has (caller i) uid → 0 < uid ∧ uid < next
  distinct : ∀ i j uid, Has (caller i) uid → Has (caller j) uid → i = j

/-- A caller is under way with a number, on the register or about to find out that it is not. -/
def OnWay (uid : Nat) (k : Caller) : Prop := k.uid = uid ∧ k.progress.isOutstanding = true

/-- A caller has sent a request and waits. -/
def Sent (q : Nat × Request) (k : Caller) : Prop :=
  k.uid = q.1 ∧ k.request = q.2 ∧ k.progress = .waiting

/-- An entry of the ledger is about the request of a caller, who waits or has its answer. -/
def Asked (s : Nat × Request × Reply) (k : Caller) : Prop :=
  k.uid = s.1 ∧ k.request = s.2.1 ∧ (k.progress = .waiting ∨ ∃ r, k.progress = .answered r)

/-- The answer of a caller is that it was turned away, or what the ledger has for its request. -/
def Due (served : List (Nat × Request × Reply)) (k : Caller) : Prop :=
  ∀ r, k.progress = .answered r → r = .error .disconnected ∨
    ∃ a : Reply, (k.uid, k.request, a) ∈ served ∧ r = Link.outcome k.label a

/-- A caller that has registered is on the register, or was handed its reply, or the router has stopped. -/
def Kept (x : Exchange Request Reply) (k : Caller) : Prop :=
  k.progress = .registered ∨ k.progress = .waiting →
    k.uid ∈ x.pending ∨ k.uid ∈ x.delivered.map Prod.fst ∨ x.routing = false

/-- When the router has stopped, a caller who waits is not on the register. -/
def Cleared (x : Exchange Request Reply) (k : Caller) : Prop :=
  x.routing = false → k.progress = .waiting → k.uid ∉ x.pending

/-- The state of exchange, callers and ledger. -/
structure Sound (c : Crowd φ σ ι) : Prop where
  numbered : Numbered c.link.exchange.nextUid c.caller
  pending_once : c.link.exchange.pending.Nodup
  pending_owned : ∀ uid ∈ c.link.exchange.pending, ∃ i, OnWay uid (c.caller i)
  calls_owned : ∀ q ∈ c.link.exchange.calls,
    q.1 = 0 ∧ q.2 = .shutdown ∨ ∃ i, Sent q (c.caller i)
  calls_once : c.link.exchange.calls.Pairwise fun p q => p.1 = q.1 → p.1 = 0
  calls_unserved : ∀ q ∈ c.link.exchange.calls, ∀ s ∈ c.served, s.1 ≠ q.1
  served_owned : ∀ s ∈ c.served, ∃ i, Asked s (c.caller i)
  served_once : (c.served.map Prod.fst).Nodup
  /-- What travels back or was handed out is an answer of the ledger. -/
  replies_served : ∀ q ∈ c.link.exchange.replies ++ c.link.exchange.delivered,
    ∃ r, (q.1, r, q.2) ∈ c.served
  replies_once :
    ((c.link.exchange.replies ++ c.link.exchange.delivered).map Prod.fst).Nodup
  handed : ∀ q ∈ c.link.exchange.delivered, q.1 ∉ c.link.exchange.pending
  due : ∀ i, Due c.served (c.caller i)
  kept : ∀ i, Kept c.link.exchange (c.caller i)
  cleared : ∀ i, Cleared c.link.exchange (c.caller i)
  /-- Worker and router stop one after the other. -/
  hung : c.link.exchange.takesCalls = false →
    c.link.exchange.calls = [] ∧ c.link.bench.life ≠ .serving
  closed : c.link.exchange.takesReplies = false → c.link.exchange.takesCalls = false
  stopped : c.link.exchange.routing = false →
    c.link.exchange.takesReplies = false ∧ c.link.exchange.replies = []

variable {c : Crowd φ σ ι}

namespace Sound

/-- Two callers under way with the same number are the same. -/
theorem same (h : Sound c) {i j : ι} (hi : (c.caller i).progress ≠ .away)
    (hj : (c.caller j).progress ≠ .away) (hu : (c.caller i).uid = (c.caller j).uid) : i = j :=
  h.numbered.distinct i j _ ⟨hi, hu⟩ ⟨hj, rfl⟩

theorem ne_away {p : Progress} (h : p.isOutstanding = true) : p ≠ .away := by
  intro hp
  rw [hp] at h
  cases h

/-- A caller whose request was answered waits or has its answer. -/
theorem asked (h : Sound c) {i : ι} (hi : (c.caller i).progress ≠ .away)
    {s : Nat × Request × Reply} (hs : s ∈ c.served) (hu : s.1 = (c.caller i).uid) :
    Asked s (c.caller i) := by
  obtain ⟨j, hj⟩ := h.served_owned s hs
  have haway : (c.caller j).progress ≠ .away := by
    rcases hj.2.2 with hp | ⟨_, hp⟩ <;> rw [hp] <;> exact nofun
  obtain rfl : i = j := h.same hi haway (by rw [hj.1, hu])
  exact hj

end Sound

theorem sound_create (factory : φ) (memory : Memory) (ask : ι → String × Request) :
    Sound (create (σ := σ) factory memory ask) where
  numbered := ⟨Nat.zero_lt_one, fun i _ h => absurd rfl h.1, fun i _ _ h => absurd rfl h.1⟩
  pending_once := List.nodup_nil
  pending_owned := by simp [create]
  calls_owned := by simp [create]
  calls_once := List.Pairwise.nil
  calls_unserved := by simp [create]
  served_owned := by simp [create]
  served_once := List.nodup_nil
  replies_served := by simp [create]
  replies_once := List.nodup_nil
  handed := by simp [create]
  due := by simp [create, Due]
  kept := by simp [create, Kept]
  cleared := by simp [create, Cleared]
  hung := by simp [create]
  closed := by simp [create]
  stopped := by simp [create]

/-! ### Callers -/

section Callers

variable [DecidableEq ι]

/-- A caller changes, and somebody still has a property that it did not lose. -/
theorem exists_update {caller : ι → Caller} {i : ι} {k : Caller} {P : Caller → Prop}
    (h : ∃ j, P (caller j)) (hk : P (caller i) → P k) : ∃ j, P (Function.update caller i k j) := by
  obtain ⟨j, hj⟩ := h
  refine ⟨j, ?_⟩
  by_cases hij : j = i
  · subst hij
    rw [Function.update_self]
    exact hk hj
  · rw [Function.update_of_ne hij]
    exact hj

/-- A caller changes, and has a property then. -/
theorem exists_updated {caller : ι → Caller} (i : ι) {k : Caller} {P : Caller → Prop} (hk : P k) :
    ∃ j, P (Function.update caller i k j) :=
  ⟨i, by rw [Function.update_self]; exact hk⟩

/-- A caller changes, and everybody has a property that it and the others have. -/
theorem forall_update {caller : ι → Caller} {i : ι} {k : Caller} {P : Caller → Prop}
    (h : ∀ j, j ≠ i → P (caller j)) (hk : P k) (j : ι) : P (Function.update caller i k j) := by
  by_cases hij : j = i
  · subst hij
    rw [Function.update_self]
    exact hk
  · rw [Function.update_of_ne hij]
    exact h j hij

/-- A caller that did not wait changes: whoever has sent a request still waits for it. -/
theorem exists_sent_update {caller : ι → Caller} {i : ι} {k : Caller} {q : Nat × Request}
    (h : ∃ j, Sent q (caller j)) (hi : (caller i).progress ≠ .waiting) :
    ∃ j, Sent q (Function.update caller i k j) := by
  refine exists_update (P := Sent q) h ?_
  intro hsent
  exact absurd hsent.2.2 hi

/-- A caller that has sent nothing changes: an entry of the ledger is still about somebody. -/
theorem exists_asked_update {caller : ι → Caller} {i : ι} {k : Caller} {s : Nat × Request × Reply}
    (h : ∃ j, Asked s (caller j)) (hi : (caller i).progress ≠ .waiting)
    (hr : ∀ r, (caller i).progress ≠ .answered r) :
    ∃ j, Asked s (Function.update caller i k j) := by
  refine exists_update (P := Asked s) h ?_
  intro hasked
  rcases hasked.2.2 with hw | ⟨r, ha⟩
  · exact absurd hw hi
  · exact absurd ha (hr r)

namespace Numbered

variable {next : Nat} {caller : ι → Caller} {i : ι} {k : Caller}

theorem has_update (hk : ∀ uid, Has k uid → Has (caller i) uid) {j : ι} {uid : Nat}
    (h : Has (Function.update caller i k j) uid) : Has (caller j) uid := by
  by_cases hij : j = i
  · subst hij
    rw [Function.update_self] at h
    exact hk uid h
  · rw [Function.update_of_ne hij] at h
    exact h

theorem keep (h : Numbered next caller) (hi : (caller i).progress ≠ .away)
    (hk : k.uid = (caller i).uid) : Numbered next (Function.update caller i k) := by
  have hhas : ∀ uid, Has k uid → Has (caller i) uid := fun uid hu => ⟨hi, hk ▸ hu.2⟩
  exact ⟨h.pos, fun j uid hj => h.bound j uid (has_update hhas hj),
    fun j j' uid hj hj' => h.distinct j j' uid (has_update hhas hj) (has_update hhas hj')⟩

theorem take (h : Numbered next caller) (hk : k.uid = next) :
    Numbered (next + 1) (Function.update caller i k) := by
  have hold : ∀ j uid, j ≠ i → Has (Function.update caller i k j) uid → uid < next := by
    intro j uid hij hj
    rw [Function.update_of_ne hij] at hj
    exact (h.bound j uid hj).2
  have hnew : ∀ uid, Has (Function.update caller i k i) uid → uid = next := by
    intro uid hj
    rw [Function.update_self] at hj
    rw [← hj.2, hk]
  refine ⟨Nat.succ_pos next, ?_, ?_⟩
  · intro j uid hj
    by_cases hij : j = i
    · subst hij
      have := hnew uid hj
      have := h.pos
      omega
    · have hlt := hold j uid hij hj
      rw [Function.update_of_ne hij] at hj
      have := (h.bound j uid hj).1
      omega
  · intro j j' uid hj hj'
    by_cases hij : j = i <;> by_cases hij' : j' = i
    · rw [hij, hij']
    · subst hij
      have := hnew uid hj
      have := hold j' uid hij' hj'
      omega
    · subst hij'
      have := hnew uid hj'
      have := hold j uid hij hj
      omega
    · rw [Function.update_of_ne hij] at hj
      rw [Function.update_of_ne hij'] at hj'
      exact h.distinct j j' uid hj hj'

end Numbered

namespace Sound

variable {i : ι}

theorem issue (h : Sound c) (hi : (c.caller i).progress = .away) :
    Sound { c with
      link.exchange := c.link.exchange.issue.2
      caller := Function.update c.caller i
        { c.caller i with uid := c.link.exchange.nextUid, progress := .issued } } where
  numbered := h.numbered.take rfl
  pending_once := h.pending_once
  pending_owned uid hu := exists_update (P := OnWay uid) (h.pending_owned uid hu)
    fun hp => absurd hi (ne_away hp.2)
  calls_owned q hq := (h.calls_owned q hq).imp_right fun hs => exists_sent_update hs (by simp [hi])
  calls_once := h.calls_once
  calls_unserved := h.calls_unserved
  served_owned s hs := exists_asked_update (h.served_owned s hs) (by simp [hi]) (by simp [hi])
  served_once := h.served_once
  replies_served := h.replies_served
  replies_once := h.replies_once
  handed := h.handed
  due := forall_update (P := Due c.served) (fun j _ => h.due j) nofun
  kept := forall_update (P := Kept c.link.exchange) (fun j _ => h.kept j) (by rintro (h | h) <;> cases h)
  cleared := forall_update (P := Cleared c.link.exchange) (fun j _ => h.cleared j) nofun
  hung := h.hung
  closed := h.closed
  stopped := h.stopped

theorem register (h : Sound c) (hi : (c.caller i).progress = .issued) :
    Sound { c with
      link.exchange := c.link.exchange.register (c.caller i).uid
      caller := Function.update c.caller i { c.caller i with progress := .registered } } := by
  have haway : (c.caller i).progress ≠ .away := by rw [hi]; exact nofun
  have hfree : ∀ j, (c.caller j).progress ≠ .away → (c.caller j).uid = (c.caller i).uid → j = i :=
    fun j hj hu => h.same hj haway hu
  have hnew : (c.caller i).uid ∉ c.link.exchange.pending := by
    intro hm
    obtain ⟨j, hu, ho⟩ := h.pending_owned _ hm
    obtain rfl := hfree j (ne_away ho) hu
    rw [hi] at ho
    cases ho
  refine { h with
    numbered := h.numbered.keep haway rfl
    pending_once := List.nodup_cons.2 ⟨hnew, h.pending_once⟩
    pending_owned := ?_
    calls_owned := fun q hq =>
      (h.calls_owned q hq).imp_right fun hs => exists_sent_update hs (by simp [hi])
    served_owned := fun s hs => exists_asked_update (h.served_owned s hs) (by simp [hi]) (by simp [hi])
    handed := ?_
    due := forall_update (P := Due c.served) (fun j _ => h.due j) nofun
    kept := forall_update (fun j _ hp => (h.kept j hp).imp_left (List.mem_cons_of_mem _))
      fun _ => .inl List.mem_cons_self
    cleared := forall_update (?_) (fun _ hp => nomatch hp) }
  · intro uid hu
    rcases List.mem_cons.1 hu with rfl | hu
    · exact exists_updated (P := OnWay (c.caller i).uid) i ⟨rfl, rfl⟩
    · exact exists_update (P := OnWay uid) (h.pending_owned uid hu) fun hp => ⟨hp.1, rfl⟩
  · intro q hq hm
    rcases List.mem_cons.1 hm with hu | hm
    · -- a reply of this number would be the reply to a request that was sent
      obtain ⟨r, hs⟩ := h.replies_served q (List.mem_append_right _ hq)
      have ha := (h.asked haway hs hu).2.2
      rw [hi] at ha
      simp at ha
    · exact h.handed q hq hm
  · intro j hj hr hp hm
    rcases List.mem_cons.1 hm with hu | hm
    · exact hj (hfree j (by rw [hp]; exact nofun) hu)
    · exact h.cleared j hr hp hm

theorem send (h : Sound c) (hi : (c.caller i).progress = .registered)
    (ht : c.link.exchange.takesCalls = true) :
    Sound { c with
      link.exchange.calls := c.link.exchange.calls ++ [((c.caller i).uid, (c.caller i).request)]
      caller := Function.update c.caller i { c.caller i with progress := .waiting } } := by
  have haway : (c.caller i).progress ≠ .away := by rw [hi]; exact nofun
  have hopen : c.link.exchange.routing = true := by
    by_contra hr
    have hc := h.closed (h.stopped (by simpa using hr)).1
    rw [ht] at hc
    cases hc
  refine { h with
    numbered := h.numbered.keep haway rfl
    pending_owned := fun uid hu =>
      exists_update (P := OnWay uid) (h.pending_owned uid hu) fun hp => ⟨hp.1, rfl⟩
    calls_owned := ?_
    calls_once := List.pairwise_append.2 ⟨h.calls_once, List.pairwise_singleton _ _, ?_⟩
    calls_unserved := ?_
    served_owned := fun s hs => exists_update (P := Asked s) (h.served_owned s hs)
      fun hp => ⟨hp.1, hp.2.1, .inl rfl⟩
    due := forall_update (P := Due c.served) (fun j _ => h.due j) nofun
    kept := forall_update (P := Kept c.link.exchange) (fun j _ => h.kept j)
      fun _ => h.kept i (.inl hi)
    cleared := fun j hr => by rw [hopen] at hr; cases hr
    hung := fun hx => by rw [ht] at hx; cases hx }
  · intro q hq
    rcases List.mem_append.1 hq with hq | hq
    · exact (h.calls_owned q hq).imp id fun hs => exists_update (P := Sent q) hs
        fun hp => ⟨hp.1, hp.2.1, rfl⟩
    · obtain rfl := List.mem_singleton.1 hq
      exact .inr (exists_updated (P := Sent ((c.caller i).uid, (c.caller i).request)) i ⟨rfl, rfl, rfl⟩)
  · intro q hq p hp hu
    -- an older request of this number could only be the caller's own
    obtain rfl := List.mem_singleton.1 hp
    rcases h.calls_owned q hq with h0 | ⟨j, hj⟩
    · exact h0.1
    · obtain rfl : j = i := h.same (by rw [hj.2.2]; exact nofun) haway (hj.1.trans hu)
      rw [Sent, hi] at hj
      exact nomatch hj.2.2
  · intro q hq s hs hu
    rcases List.mem_append.1 hq with hq | hq
    · exact h.calls_unserved q hq s hs hu
    · obtain rfl := List.mem_singleton.1 hq
      have ha := (h.asked haway hs hu).2.2
      rw [hi] at ha
      simp at ha

theorem refuse (h : Sound c) (hi : (c.caller i).progress = .registered) :
    Sound { c with
      caller := Function.update c.caller i { c.caller i with progress := .refused } } := by
  have haway : (c.caller i).progress ≠ .away := by rw [hi]; exact nofun
  exact { h with
    numbered := h.numbered.keep haway rfl
    pending_owned := fun uid hu =>
      exists_update (P := OnWay uid) (h.pending_owned uid hu) fun hp => ⟨hp.1, rfl⟩
    calls_owned := fun q hq =>
      (h.calls_owned q hq).imp_right fun hs => exists_sent_update hs (by simp [hi])
    served_owned := fun s hs => exists_asked_update (h.served_owned s hs) (by simp [hi]) (by simp [hi])
    due := forall_update (P := Due c.served) (fun j _ => h.due j) nofun
    kept := forall_update (P := Kept c.link.exchange) (fun j _ => h.kept j)
      (by rintro (h | h) <;> cases h)
    cleared := forall_update (P := Cleared c.link.exchange) (fun j _ => h.cleared j)
      fun _ hp => nomatch hp }

/-- A caller that could not send its request takes its name off the register. -/
theorem withdraw (h : Sound c) (hi : (c.caller i).progress = .refused) :
    Sound { c with
      link.exchange := c.link.exchange.withdraw (c.caller i).uid
      caller := Function.update c.caller i
        { c.caller i with progress := .answered (.error .disconnected) } } := by
  have haway : (c.caller i).progress ≠ .away := by rw [hi]; exact nofun
  refine { h with
    numbered := h.numbered.keep haway rfl
    pending_once := h.pending_once.erase _
    pending_owned := ?_
    calls_owned := fun q hq =>
      (h.calls_owned q hq).imp_right fun hs => exists_sent_update hs (by simp [hi])
    served_owned := fun s hs => exists_asked_update (h.served_owned s hs) (by simp [hi]) (by simp [hi])
    handed := fun q hq hm => h.handed q hq (List.mem_of_mem_erase hm)
    due := forall_update (P := Due c.served) (fun j _ => h.due j) ?_
    kept := forall_update (?_) (by rintro (h | h) <;> cases h)
    cleared := forall_update (fun j _ hr hp hm => h.cleared j hr hp (List.mem_of_mem_erase hm))
      fun _ hp => nomatch hp }
  · intro uid hu
    have hu' := (List.Nodup.mem_erase_iff h.pending_once).1 hu
    exact exists_update (P := OnWay uid) (h.pending_owned uid hu'.2) fun hp => absurd hp.1.symm hu'.1
  · intro r hr
    exact .inl (Progress.answered.inj hr).symm
  · intro j hj hp
    have hne : (c.caller j).uid ≠ (c.caller i).uid := by
      intro hu
      exact hj (h.same (by rcases hp with hp | hp <;> rw [hp] <;> exact nofun) haway hu)
    exact (h.kept j hp).imp_left (List.mem_erase_of_ne hne).2

theorem answer (h : Sound c) (hi : (c.caller i).progress = .waiting) {r : Except Error Value}
    (hr : c.link.collect (c.caller i).label (c.caller i).uid = some r) :
    Sound { c with
      caller := Function.update c.caller i { c.caller i with progress := .answered r } } := by
  have haway : (c.caller i).progress ≠ .away := by rw [hi]; exact nofun
  have hcases := Link.collect_cases hr
  -- it is not on the register, and its request does not travel any more
  have hoff : (c.caller i).uid ∉ c.link.exchange.pending := by
    rcases hcases with ⟨a, ha, -⟩ | ⟨hg, -⟩
    · exact h.handed _ (Exchange.mem_of_receive ha)
    · exact (Exchange.not_mem_of_gone hg).1
  have hgone : ∀ q ∈ c.link.exchange.calls, q.1 ≠ (c.caller i).uid := by
    intro q hq hu
    rcases hcases with ⟨a, ha, -⟩ | ⟨hg, -⟩
    · obtain ⟨r', hs⟩ := h.replies_served _ (List.mem_append_right _ (Exchange.mem_of_receive ha))
      exact h.calls_unserved q hq _ hs hu.symm
    · have hstop := ((h.kept i (.inr hi)).resolve_left hoff).resolve_left
        (Exchange.not_mem_of_gone hg).2
      rw [(h.hung (h.closed (h.stopped hstop).1)).1] at hq
      cases hq
  refine { h with
    numbered := h.numbered.keep haway rfl
    pending_owned := fun uid hu => exists_update (P := OnWay uid) (h.pending_owned uid hu)
      fun hp => absurd (hp.1 ▸ hu) hoff
    calls_owned := fun q hq => (h.calls_owned q hq).imp id fun hs => exists_update (P := Sent q) hs
      fun hp => absurd hp.1.symm (hgone q hq)
    served_owned := fun s hs => exists_update (P := Asked s) (h.served_owned s hs)
      fun hp => ⟨hp.1, hp.2.1, .inr ⟨r, rfl⟩⟩
    due := forall_update (P := Due c.served) (fun j _ => h.due j) ?_
    kept := forall_update (P := Kept c.link.exchange) (fun j _ => h.kept j)
      (by rintro (h | h) <;> cases h)
    cleared := forall_update (P := Cleared c.link.exchange) (fun j _ => h.cleared j)
      fun _ hp => nomatch hp }
  intro r' hr'
  obtain rfl := Progress.answered.inj hr'
  rcases hcases with ⟨a, ha, rfl⟩ | ⟨-, rfl⟩
  · obtain ⟨r', hs⟩ := h.replies_served _ (List.mem_append_right _ (Exchange.mem_of_receive ha))
    refine .inr ⟨a, ?_, rfl⟩
    have hq := (h.asked haway hs rfl).2.1
    rw [hq]
    exact hs
  · exact .inl rfl

end Sound

end Callers

/-! ### Worker and router -/

namespace Sound

theorem served_pos (h : Sound c) {s : Nat × Request × Reply} (hs : s ∈ c.served) : 0 < s.1 := by
  obtain ⟨i, hi⟩ := h.served_owned s hs
  have haway : (c.caller i).progress ≠ .away := by
    rcases hi.2.2 with hp | ⟨_, hp⟩ <;> rw [hp] <;> exact nofun
  exact (h.numbered.bound i s.1 ⟨haway, hi.1⟩).1

theorem dismiss (h : Sound c) :
    Sound { c with link.exchange := (c.link.exchange.send 0 .shutdown).2 } := by
  rw [Exchange.send]
  split
  · next ht =>
    refine { h with
      calls_owned := ?_
      calls_once := List.pairwise_append.2 ⟨h.calls_once, List.pairwise_singleton _ _, ?_⟩
      calls_unserved := ?_
      hung := fun hx => by rw [ht] at hx; cases hx }
    · intro q hq
      rcases List.mem_append.1 hq with hq | hq
      · exact h.calls_owned q hq
      · obtain rfl := List.mem_singleton.1 hq
        exact .inl ⟨rfl, rfl⟩
    · intro q hq p hp hu
      obtain rfl := List.mem_singleton.1 hp
      exact hu
    · intro q hq s hs hu
      rcases List.mem_append.1 hq with hq | hq
      · exact h.calls_unserved q hq s hs hu
      · obtain rfl := List.mem_singleton.1 hq
        have hpos := h.served_pos hs
        rw [hu] at hpos
        exact Nat.lt_irrefl 0 hpos
  · exact h

theorem take (h : Sound c) {q : Nat × Request} {cs : List (Nat × Request)}
    (hc : c.link.exchange.calls = q :: cs) : Sound { c with link.exchange.calls := cs } := by
  have hmem : ∀ p ∈ cs, p ∈ c.link.exchange.calls := by
    intro p hp
    rw [hc]
    exact List.mem_cons_of_mem q hp
  have honce := h.calls_once
  rw [hc] at honce
  exact { h with
    calls_owned := fun p hp => h.calls_owned p (hmem p hp)
    calls_once := honce.of_cons
    calls_unserved := fun p hp => h.calls_unserved p (hmem p hp)
    hung := fun hx => by
      have hnil := (h.hung hx).1
      rw [hc] at hnil
      cases hnil }

/-- The worker changes, while requests are taken. -/
theorem work (h : Sound c) (ht : c.link.exchange.takesCalls = true) (b : Bench φ σ) :
    Sound { c with link.bench := b } :=
  { h with hung := fun hx => by rw [ht] at hx; cases hx }

/-- The worker answers the request of a caller that waits, which is no request of the ledger and not
on its way any more. -/
theorem post (h : Sound c) {i : ι} {q : Nat × Request} (hi : Sent q (c.caller i)) (a : Reply)
    (hs : ∀ s ∈ c.served, s.1 ≠ q.1) (hq : ∀ p ∈ c.link.exchange.calls, q.1 ≠ p.1)
    (ht : c.link.exchange.takesCalls = true) :
    Sound { c with
      link.exchange := c.link.exchange.post q.1 a
      served := c.served ++ [(q.1, q.2, a)] } := by
  have hkey : q.1 ∉ (c.link.exchange.replies ++ c.link.exchange.delivered).map Prod.fst := by
    intro hm
    obtain ⟨p, hp, hu⟩ := List.mem_map.1 hm
    obtain ⟨r, hr⟩ := h.replies_served p hp
    exact hs _ hr hu
  have hperm := c.link.exchange.perm_post q.1 a
  refine { h with
    calls_unserved := ?_
    served_owned := ?_
    served_once := ?_
    replies_served := ?_
    replies_once := ?_
    due := ?_
    stopped := ?_ }
  · intro p hp s hm
    rcases List.mem_append.1 hm with hm | hm
    · exact h.calls_unserved p hp s hm
    · obtain rfl := List.mem_singleton.1 hm
      exact hq p hp
  · intro s hm
    rcases List.mem_append.1 hm with hm | hm
    · exact h.served_owned s hm
    · obtain rfl := List.mem_singleton.1 hm
      exact ⟨i, hi.1, hi.2.1, .inl hi.2.2⟩
  · rw [List.map_append, List.map_cons, List.map_nil]
    refine List.nodup_append.2 ⟨h.served_once, List.pairwise_singleton _ _, fun x hx y hy => ?_⟩
    obtain ⟨s, hm, rfl⟩ := List.mem_map.1 hx
    obtain rfl := List.mem_singleton.1 hy
    exact hs s hm
  · intro p hp
    rcases List.mem_cons.1 (hperm.mem_iff.1 hp) with rfl | hp
    · exact ⟨q.2, List.mem_append_right _ (List.mem_singleton_self _)⟩
    · obtain ⟨r, hr⟩ := h.replies_served p hp
      exact ⟨r, List.mem_append_left _ hr⟩
  · exact (hperm.map Prod.fst).nodup_iff.2 (List.nodup_cons.2 ⟨hkey, h.replies_once⟩)
  · intro j r hr
    rcases h.due j r hr with hd | ⟨b, hb, hd⟩
    · exact .inl hd
    · exact .inr ⟨b, List.mem_append_left _ hb, hd⟩
  · intro hr
    have hc := h.closed (h.stopped hr).1
    rw [ht] at hc
    cases hc

theorem attend (h : Sound c) (E : Engine φ σ) (notified : Bool) (hl : c.link.bench.life = .serving) :
    Sound { c with
      link := c.link.attend E notified
      served := c.served ++ (c.link.answer? E).toList } := by
  have ht : c.link.exchange.takesCalls = true := by
    by_contra hx
    exact (h.hung (by simpa using hx)).2 hl
  rw [Link.attend, Link.answer?, Exchange.take?]
  rw [if_neg (by rw [hl]; exact nofun)]
  cases hc : c.link.exchange.calls with
  | nil =>
    simp only [Option.toList_none, List.append_nil]
    exact h.work ht _
  | cons q cs =>
    obtain ⟨uid, r⟩ := q
    rcases hh : c.link.bench.handle E r with ⟨answer, b⟩
    have htake := (h.take hc).work ht b
    cases answer with
    | none =>
      simp only [hh, Option.map_none, Option.toList_none, List.append_nil]
      exact htake
    | some a =>
      simp only [hh, Option.map_some, Option.toList_some]
      -- what is answered was sent by a caller: only a shutdown is not, and that is not answered
      have howned := h.calls_owned (uid, r) (by rw [hc]; exact List.mem_cons_self)
      have hsent : ∃ i, Sent (uid, r) (c.caller i) := by
        rcases howned with ⟨-, hr⟩ | hi
        · obtain rfl : r = .shutdown := hr
          cases congrArg Prod.fst hh
        · exact hi
      obtain ⟨i, hi⟩ := hsent
      have hpos : 0 < uid := (h.numbered.bound i uid ⟨by rw [hi.2.2]; exact nofun, hi.1⟩).1
      have honce := h.calls_once
      rw [hc] at honce
      refine htake.post (q := (uid, r)) hi a
        (h.calls_unserved (uid, r) (by rw [hc]; exact List.mem_cons_self)) (?_) ht
      intro p hp hu
      have := (List.pairwise_cons.1 honce).1 p hp hu
      exact absurd this (Nat.pos_iff_ne_zero.1 hpos)

theorem hangUp (h : Sound c) (hl : c.link.bench.life ≠ .serving) :
    Sound { c with link.exchange := c.link.exchange.hangUp } :=
  { h with
    calls_owned := fun _ hq => nomatch hq
    calls_once := List.Pairwise.nil
    calls_unserved := fun _ hq => nomatch hq
    hung := fun _ => ⟨rfl, hl⟩
    closed := fun _ => rfl }

theorem close (h : Sound c) (ht : c.link.exchange.takesCalls = false) :
    Sound { c with link.exchange := c.link.exchange.close } :=
  { h with
    closed := fun _ => ht
    stopped := fun hr => ⟨rfl, (h.stopped hr).2⟩ }

theorem route (h : Sound c) (hr : c.link.exchange.routing = true) :
    Sound { c with link := c.link.route } := by
  have hopen : c.link.exchange.routing ≠ false := by
    rw [hr]
    exact nofun
  rw [Link.route, Exchange.route]
  cases hq : c.link.exchange.replies with
  | nil =>
    dsimp only
    split
    · exact h
    · next ht =>
      have hserved := h.replies_served
      have honce := h.replies_once
      rw [hq] at hserved honce
      exact { h with
        pending_once := List.nodup_nil
        pending_owned := fun _ hu => nomatch hu
        replies_served := hserved
        replies_once := honce
        handed := fun _ _ => List.not_mem_nil
        kept := fun _ _ => .inr (.inr rfl)
        cleared := fun _ _ _ => List.not_mem_nil
        stopped := fun _ => ⟨by simpa using ht, rfl⟩ }
  | cons q rs =>
    obtain ⟨uid, a⟩ := q
    have hserved := h.replies_served
    have honce := h.replies_once
    rw [hq] at hserved honce
    dsimp only
    split
    · next hp =>
      have hperm : (rs ++ (uid, a) :: c.link.exchange.delivered).Perm
          ((uid, a) :: rs ++ c.link.exchange.delivered) := List.perm_middle
      exact { h with
        pending_once := h.pending_once.erase _
        pending_owned := fun u hu => h.pending_owned u (List.mem_of_mem_erase hu)
        replies_served := fun p hm => hserved p (hperm.mem_iff.1 hm)
        replies_once := (hperm.map Prod.fst).nodup_iff.2 honce
        handed := fun p hm => by
          rcases List.mem_cons.1 hm with rfl | hm
          · exact h.pending_once.not_mem_erase
          · exact fun hu => h.handed p hm (List.mem_of_mem_erase hu)
        kept := fun i hi => by
          by_cases hu : (c.caller i).uid = uid
          · exact .inr (.inl (by rw [hu]; exact List.mem_cons_self))
          · exact (h.kept i hi).imp (List.mem_erase_of_ne hu).2
              (Or.imp_left (List.mem_cons_of_mem _))
        cleared := fun _ hx => absurd hx hopen
        stopped := fun hx => absurd hx hopen }
    · exact { h with
        replies_served := fun p hm => hserved p (List.mem_cons_of_mem _ hm)
        replies_once := (List.nodup_cons.1 honce).2
        stopped := fun hx => absurd hx hopen }

theorem others (h : Sound c) (m : Memory) (es : List Event) :
    Sound { c with link.bench.memory := m, link.bench.reports := es } :=
  { h with }

end Sound

/-! ### Everything that can happen -/

section Runs

variable [DecidableEq ι]

theorem Sound.call (h : Sound c) {i : ι} {k : Caller} {l : Link φ σ}
    (ht : (c.caller i).turn c.link = some (k, l)) :
    Sound { c with link := l, caller := Function.update c.caller i k } := by
  rw [Caller.turn] at ht
  split at ht
  · next hi =>
    cases ht
    exact h.issue hi
  · next hi =>
    cases ht
    exact h.register hi
  · next hi =>
    rw [Exchange.send] at ht
    by_cases hs : c.link.exchange.takesCalls = true
    · rw [if_pos hs] at ht
      cases ht
      exact h.send hi hs
    · rw [if_neg hs] at ht
      cases ht
      exact h.refuse hi
  · next hi =>
    cases ht
    exact h.withdraw hi
  · next hi =>
    obtain ⟨r, hr, hk⟩ := Option.map_eq_some_iff.1 ht
    cases hk
    exact h.answer hi hr
  · cases ht

/-- **The invariant holds whatever happens.** -/
theorem sound_of_reachable {E : Engine φ σ} (h : Reachable E c) : Sound c := by
  obtain ⟨factory, memory, ask, hrun⟩ := h
  induction hrun with
  | refl => exact sound_create factory memory ask
  | tail _ hstep ih =>
    cases hstep with
    | call i ht => exact ih.call ht
    | dismiss => exact ih.dismiss
    | attend notified hl => exact ih.attend E notified hl
    | hangUp hl => exact ih.hangUp hl
    | close ht => exact ih.close ht
    | route hr => exact ih.route hr
    | others m es => exact ih.others m es

/-- What callers can rely on. -/
structure Matched (c : Crowd φ σ ι) : Prop where
  /-- A value is the one that the worker computed for the caller's own request. -/
  value : ∀ i v, (c.caller i).progress = .answered (.ok v) →
    ((c.caller i).uid, (c.caller i).request, .ok v) ∈ c.served
  /-- So is a refusal, in the words of the worker. -/
  refusal : ∀ i label text, (c.caller i).progress = .answered (.error (.remote label text)) →
    label = (c.caller i).label ∧ ∃ e : EngineError, text = e.message ∧
      ((c.caller i).uid, (c.caller i).request, .error e) ∈ c.served
  /-- There is no other answer but to be turned away. -/
  otherwise : ∀ i e, (c.caller i).progress = .answered (.error e) →
    e = .disconnected ∨ ∃ text, e = .remote (c.caller i).label text
  /-- Callers have different numbers, and no request is answered twice. -/
  distinct : ∀ i j uid, Has (c.caller i) uid → Has (c.caller j) uid → i = j
  once : (c.served.map Prod.fst).Nodup ∧
    ((c.link.exchange.replies ++ c.link.exchange.delivered).map Prod.fst).Nodup
  /-- Nobody who waits is turned away while the router works. -/
  patient : ∀ i, (c.caller i).progress = .waiting →
    c.link.exchange.receive (c.caller i).uid = .gone → c.link.exchange.routing = false
  /-- When the router has stopped, worker and router are both done, and whoever waits is off the register
  and is told its own answer next, or that it was turned away. -/
  released : c.link.exchange.routing = false →
    c.link.exchange.takesCalls = false ∧ c.link.exchange.takesReplies = false ∧
    ∀ i, (c.caller i).progress = .waiting →
      (c.caller i).uid ∉ c.link.exchange.pending ∧
      ∃ r, (c.caller i).turn c.link = some ({ c.caller i with progress := .answered r }, c.link) ∧
        (r = .error .disconnected ∨ ∃ a : Reply,
          ((c.caller i).uid, (c.caller i).request, a) ∈ c.served ∧
            r = Link.outcome (c.caller i).label a)
  /-- Whoever cannot send takes exactly its own name off the register, and is turned away. -/
  withdrawn : ∀ i, (c.caller i).progress = .refused → ∃ l : Link φ σ,
    (c.caller i).turn c.link =
      some ({ c.caller i with progress := .answered (.error .disconnected) }, l) ∧
    ∀ uid, uid ∈ l.exchange.pending ↔ uid ∈ c.link.exchange.pending ∧ uid ≠ (c.caller i).uid
  /-- When nobody is under way the register is empty. -/
  quiet : (∀ i, (c.caller i).progress.isOutstanding = false) → c.link.exchange.pending = []

/-- **Replies match requests**, for any number of callers, whatever they ask for and in whatever order
callers, worker and router make their steps. -/
theorem replies_match {E : Engine φ σ} (hr : Reachable E c) : Matched c := by
  have h := sound_of_reachable hr
  refine ⟨?_, ?_, ?_, h.numbered.distinct,
    ⟨h.served_once, h.replies_once⟩, ?_, ?_, ?_, ?_⟩
  · intro i v hv
    rcases h.due i _ hv with hd | ⟨a, ha, hd⟩
    · cases hd
    · cases a with
      | ok v' =>
        obtain rfl := Except.ok.inj hd
        exact ha
      | error e => cases hd
  · intro i label text ht
    rcases h.due i _ ht with hd | ⟨a, ha, hd⟩
    · cases hd
    · cases a with
      | ok v => cases hd
      | error e =>
        obtain ⟨hl, htext⟩ := Error.remote.inj (Except.error.inj hd)
        exact ⟨hl, e, htext, ha⟩
  · intro i e he
    rcases h.due i _ he with hd | ⟨a, -, hd⟩
    · exact .inl (Except.error.inj hd)
    · cases a with
      | ok v => cases hd
      | error e' => exact .inr ⟨e'.message, Except.error.inj hd⟩
  · intro i hi hg
    have hoff := Exchange.not_mem_of_gone hg
    exact ((h.kept i (.inr hi)).resolve_left hoff.1).resolve_left hoff.2
  · intro hs
    refine ⟨h.closed (h.stopped hs).1, (h.stopped hs).1, fun i hi => ?_⟩
    have hoff : (c.caller i).uid ∉ c.link.exchange.pending := h.cleared i hs hi
    refine ⟨hoff, ?_⟩
    cases hcol : c.link.collect (c.caller i).label (c.caller i).uid with
    | none => exact absurd (Exchange.mem_of_waiting (Link.collect_eq_none_iff.1 hcol)) hoff
    | some r =>
      refine ⟨r, by simp only [Caller.turn, hi, hcol, Option.map_some], ?_⟩
      -- what it is told next is what the invariant says of the caller that was told
      have hd : Due c.served
          (Function.update c.caller i { c.caller i with progress := .answered r } i) :=
        (h.answer hi hcol).due i
      rw [Function.update_self] at hd
      exact hd r rfl
  · intro i hi
    refine ⟨_, by simp only [Caller.turn, hi]; rfl, fun uid => ?_⟩
    show uid ∈ c.link.exchange.pending.erase (c.caller i).uid ↔ _
    rw [List.Nodup.mem_erase_iff h.pending_once]
    exact And.comm
  · intro hn
    refine List.eq_nil_iff_forall_not_mem.2 fun uid hu => ?_
    obtain ⟨i, -, ho⟩ := h.pending_owned uid hu
    rw [hn i] at ho
    cases ho

/-- Two requests overlap: who took its number last sends first, and is refused before the other has its engine. -/
theorem replies_match_overlap : ∃ c : Crowd Unit Sine Bool, Reachable Sine.engine c ∧
    ((c.caller false).uid, (c.caller false).progress) = (1, .answered (.ok (.int 1))) ∧
    ((c.caller true).uid, (c.caller true).progress) =
      (2, .answered (.error (.remote Link.resetLabel (EngineError.unknownInstance 7).message))) ∧
    c.served.map Prod.fst = [2, 1] ∧ Matched c := by
  have hrun : ∃ c : Crowd Unit Sine Bool, Reachable Sine.engine c ∧
      ((c.caller false).uid, (c.caller false).progress) = (1, .answered (.ok (.int 1))) ∧
      ((c.caller true).uid, (c.caller true).progress) =
        (2, .answered (.error (.remote Link.resetLabel (EngineError.unknownInstance 7).message))) ∧
      c.served.map Prod.fst = [2, 1] :=
    -- both take a number, both are on the register, and then each sends
    ⟨_, ⟨(), {}, fun resets => if resets then (Link.resetLabel, .reset 7) else (Link.buildLabel, .build {}),
      ((((((((((((Relation.ReflTransGen.refl.tail (.call false rfl)).tail (.call true rfl)).tail
        (.call true rfl)).tail (.call false rfl)).tail (.call true rfl)).tail (.call false rfl)).tail
        (.attend false rfl)).tail (.attend false rfl)).tail (.route rfl)).tail (.call true rfl)).tail
        (.route rfl)).tail (.call false rfl))⟩, rfl, rfl, rfl⟩
  obtain ⟨c, hc, hbuilt, hrefused, hserved⟩ := hrun
  exact ⟨c, hc, hbuilt, hrefused, hserved, replies_match hc⟩

end Runs

end Crowd
end SynthControl
