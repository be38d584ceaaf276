import SynthControl.Proofs.Correspondence
import SynthControl.Proofs.Ensemble

/-!
# Clients that are alike

Two sessions that are alike, each with a client that is about the same.  Completions, numbers of requests and
regions are further on in the first by a constant.

* `Lifecycle.shift`, `Invocation.shift`, `Client.shift` — what one client is about, as the other is about it;
* `Client.Expects`, `Client.Renews` — where the request of a client can be, and that its reset was served;
* `Ensemble.Like` — two sessions with their clients that are alike; `router`, `worker` — the others move;
* `lifecycle`, `call` — **every step of a conversation and of a call goes the same way in both**.
-/

namespace SynthControl

/-! ### The client -/

/-- A conversation in one session, as the one in a session that is alike. -/
def Lifecycle.shift (ρ κ u : Nat) : Lifecycle → Lifecycle
  | .sendStart n c io => .sendStart n (κ + c) (io.shift ρ)
  | .awaitStart c uid => .awaitStart (κ + c) (u + uid)
  | .awaitStarted status c => .awaitStarted status (κ + c)
  | .awaitStopped p c => .awaitStopped p (κ + c)
  | .awaitReset uid => .awaitReset (u + uid)
  | task => task

/-- The same of a call. -/
def Invocation.shift (ρ u : Nat) : Invocation → Invocation
  | .enter op args i => .enter op args (ρ + i)
  | .await op args i w => .await op args (ρ + i) w
  | .awaitReply op uid => .awaitReply op (u + uid)
  | task => task

/-- The one request has this number, and is such a one if the worker has not served it. -/
def Post.IsOf (uid : Nat) (asks : Request → Prop) : Post → Prop
  | .empty => False
  | .asked v r => v = uid ∧ asks r
  | .answered v _ | .told v _ => v = uid

namespace Client

def shift (ρ κ u : Nat) : Client → Client
  | .free => .free
  | .lifecycle task => .lifecycle (task.shift ρ κ u)
  | .call task => .call (task.shift ρ u)

/-- The answer that the client waits for tells something of the files. -/
def tellsFiles : Client → Bool
  | .call (.awaitReply op _) => op.tellsFiles
  | _ => false

/-- The request that a client waits for an answer to; any other client has made none. -/
def Expects : Client → Post → Prop
  | .lifecycle (.awaitStart _ uid), p => p.IsOf uid fun r => ∃ n io, r = .start n io ∧ io.bank = 0
  | .lifecycle (.awaitReset uid), p => p.IsOf uid fun r => r = .reset 1
  | .call (.awaitReply op uid), p => p.IsOf uid fun r => ∃ n args, r = .call n op args
  | .lifecycle (.sendStart _ _ io), p => p = .empty ∧ io.bank = 0
  | _, p => p = .empty

/-- The worker has served the reset that the client is about. -/
def Renews : Client → Post → Prop
  | .lifecycle (.returnToStopped _), _ => True
  | .lifecycle (.awaitReset _), .answered _ _ | .lifecycle (.awaitReset _), .told _ _ => True
  | _, _ => False

variable {k : Client} {p : Post} {uid : Nat} {r : Request}

/-- What is asked is a start, a reset or a call. -/
theorem Expects.asked (h : k.Expects (.asked uid r)) : r.IsOrdinary ∧ r.tellsFiles = k.tellsFiles := by
  unfold Expects at h
  split at h
  · obtain ⟨-, n, io, rfl, hbank⟩ := h
    exact ⟨hbank, rfl⟩
  · obtain ⟨-, rfl⟩ := h
    exact ⟨trivial, rfl⟩
  · obtain ⟨-, n, args, rfl⟩ := h
    exact ⟨trivial, rfl⟩
  · cases h.1
  · cases h

/-- The client goes on waiting when the worker has answered. -/
theorem Expects.answered (h : k.Expects (.asked uid r)) (a : Reply) :
    k.Expects (.answered uid a) ∧ (k.Renews (.answered uid a) → r = .reset 1) := by
  unfold Expects at h ⊢
  split at h
  · exact ⟨h.1, False.elim⟩
  · exact ⟨h.1, fun _ => h.2⟩
  · exact ⟨h.1, False.elim⟩
  · cases h.1
  · cases h

/-- It does not notice that its answer is handed to it. -/
theorem Expects.told {a : Reply} (h : k.Expects (.answered uid a)) :
    k.Expects (.told uid a) ∧ (k.Renews (.told uid a) → k.Renews (.answered uid a)) := by
  unfold Expects at h ⊢
  split at h
  · exact ⟨h, False.elim⟩
  · exact ⟨h, id⟩
  · exact ⟨h, False.elim⟩
  · cases h.1
  · cases h

end Client

/-! ### Ensembles that are alike -/

/-- The same place of a request in two exchanges: numbers are `u` further on in the first, regions `ρ`, and the
answers are the same unless they tell something of the files. -/
inductive Post.Like (ρ u : Nat) (tells : Bool) : Post → Post → Prop where
  | empty : Like ρ u tells .empty .empty
  | asked (uid : Nat) (r : Request) : Like ρ u tells (.asked (u + uid) (r.shift ρ)) (.asked uid r)
  | answered (uid : Nat) {a' a : Reply} (h : tells = false → a' = a) :
      Like ρ u tells (.answered (u + uid) a') (.answered uid a)
  | told (uid : Nat) {a' a : Reply} (h : tells = false → a' = a) :
      Like ρ u tells (.told (u + uid) a') (.told uid a)

namespace Post.Like

variable {ρ u : Nat} {tells : Bool} {p' p : Post}

/-- In both the worker has something to serve, or in neither. -/
theorem asked_cases (h : Post.Like ρ u tells p' p) :
    (∃ uid r, p' = .asked (u + uid) (r.shift ρ) ∧ p = .asked uid r) ∨
      (∀ uid r, p' ≠ .asked uid r) ∧ ∀ uid r, p ≠ .asked uid r := by
  cases h with
  | asked uid r => exact .inl ⟨uid, r, rfl, rfl⟩
  | empty | answered | told => exact .inr (by simp)

/-- In both the router has something to hand on, or in neither. -/
theorem answered_cases (h : Post.Like ρ u tells p' p) :
    (∃ uid a' a, (tells = false → a' = a) ∧ p' = .answered (u + uid) a' ∧ p = .answered uid a) ∨
      (∀ uid a, p' ≠ .answered uid a) ∧ ∀ uid a, p ≠ .answered uid a := by
  cases h with
  | answered uid heq => exact .inl ⟨uid, _, _, heq, rfl, rfl⟩
  | empty | asked | told => exact .inr (by simp)

end Post.Like

/-- The numbers of requests are `u` further on in one exchange than in another, where one was given out before. -/
def Exchange.Like (u : Nat) (x' x : Exchange Request Reply) : Prop := x'.nextUid = u + x.nextUid ∧ 1 < x.nextUid

theorem Exchange.Like.congr {u : Nat} {x' x y' y : Exchange Request Reply} (h : x'.Like u x)
    (hx' : y'.nextUid = x'.nextUid) (hx : y.nextUid = x.nextUid) : y'.Like u y := by
  rw [Exchange.Like, hx', hx]
  exact h

/-- Two sessions with their clients that are alike. -/
structure Ensemble.Like {ω : Type} (config : Config) (ρ κ u : Nat) (old : List String) (heard : Bool)
    (v' v : Ensemble Unit Sine ω) : Prop where
  session : Session.Like config ρ κ old heard v'.session v.session
  client : v'.client = v.client.shift ρ κ u
  exchange : v'.session.link.exchange.Like u v.session.link.exchange
  post : ∃ p' p, v'.session.link.exchange.Bears p' ∧ v.session.link.exchange.Bears p ∧
    p'.Like ρ u v.client.tellsFiles p ∧ v.client.Expects p ∧
    (v.client.Renews p → v'.session.link.bench.IsRenewed config.engine ∧ v.session.link.bench.IsRenewed config.engine)

namespace Ensemble.Like

variable {ω : Type} {config : Config} {ρ κ u : Nat} {old : List String} {heard : Bool}
  {v' v : Ensemble Unit Sine ω} {s' s s₁' s₁ : Session Unit Sine ω} {k' k : Client}

/-- A client that has made no request. -/
theorem quiet (k : Client) (hs : Session.Like config ρ κ old heard s' s)
    (hu : s'.link.exchange.Like u s.link.exchange) (hx' : s'.link.exchange.Bears .empty)
    (hx : s.link.exchange.Bears .empty) (hk : k.Expects .empty) (hr : ¬ k.Renews .empty) :
    Ensemble.Like config ρ κ u old heard ⟨s', k.shift ρ κ u⟩ ⟨s, k⟩ :=
  ⟨hs, rfl, hu, .empty, .empty, hx', hx, .empty, hk, fun h => absurd h hr⟩

/-- The exchanges of sessions whose client has made no request. -/
theorem bears_empty (h : Ensemble.Like config ρ κ u old heard ⟨s', k'⟩ ⟨s, k⟩)
    (hk : ∀ p, k.Expects p → p = .empty) :
    s'.link.exchange.Bears .empty ∧ s.link.exchange.Bears .empty := by
  obtain ⟨p', p, hx', hx, hlike, hexp, -⟩ := h.post
  obtain rfl := hk p hexp
  cases hlike
  exact ⟨hx', hx⟩

/-- The sessions change in what has nothing to do with the exchange, and the client turns to something else. -/
theorem turnTo (h : Ensemble.Like config ρ κ u old heard ⟨s', k'⟩ ⟨s, k⟩) (k₁ : Client)
    (hk : ∀ p, k.Expects p → p = .empty) (hs : Session.Like config ρ κ old heard s₁' s₁)
    (hx' : s₁'.link.exchange = s'.link.exchange) (hx : s₁.link.exchange = s.link.exchange)
    (hk₁ : k₁.Expects .empty) (hr : ¬ k₁.Renews .empty) :
    Ensemble.Like config ρ κ u old heard ⟨s₁', k₁.shift ρ κ u⟩ ⟨s₁, k₁⟩ := by
  obtain ⟨hempty', hempty⟩ := h.bears_empty hk
  exact quiet k₁ hs (hx' ▸ hx ▸ h.exchange) (hx' ▸ hempty') (hx ▸ hempty) hk₁ hr

/-- A client without a request makes one, and waits. -/
theorem submit (h : Ensemble.Like config ρ κ u old heard ⟨s', k'⟩ ⟨s, k⟩)
    (hk : ∀ p, k.Expects p → p = .empty) (r : Request) (k₁ : Nat → Client)
    (hexp : ∀ uid, (k₁ uid).Expects (.asked uid r)) (hr : ∀ uid, ¬ (k₁ uid).Renews (.asked uid r)) :
    ∃ uid l' l, s'.link.submit (r.shift ρ) = (.ok (u + uid), l') ∧ s.link.submit r = (.ok uid, l) ∧
      Ensemble.Like config ρ κ u old heard ⟨{ s' with link := l' }, (k₁ uid).shift ρ κ u⟩
        ⟨{ s with link := l }, k₁ uid⟩ := by
  obtain ⟨hempty', hempty⟩ := h.bears_empty hk
  obtain ⟨x', hsubmit', hbears', hnext'⟩ := Link.submit_bears hempty' (r.shift ρ)
  obtain ⟨x, hsubmit, hbears, hnext⟩ := Link.submit_bears hempty r
  obtain ⟨hu, hfirst⟩ : s'.link.exchange.Like u s.link.exchange := h.exchange
  rw [hu] at hsubmit' hbears' hnext'
  have hlike : x'.Like u x := by
    rw [Exchange.Like, hnext', hnext, Nat.add_assoc]
    exact ⟨rfl, Nat.lt_succ_of_lt hfirst⟩
  exact ⟨_, _, _, hsubmit', hsubmit, h.session.withLink h.session.bench, rfl, hlike, _, _, hbears', hbears,
    .asked _ r, hexp _, fun hren => absurd hren (hr _)⟩

/-- A client that waits for an answer goes on waiting in both, or is told answers that are the same unless they
tell something of the files. -/
theorem collect (h : Ensemble.Like config ρ κ u old heard ⟨s', k'⟩ ⟨s, k⟩) {uid : Nat} {asks : Request → Prop}
    (hk : ∀ p, k.Expects p → p.IsOf uid asks) (label : String) :
    (s'.link.collect label (u + uid) = none ∧ s.link.collect label uid = none) ∨
      ∃ a' a : Reply, s'.link.collect label (u + uid) = some (a'.mapError fun e => .remote label e.message) ∧
        s.link.collect label uid = some (a.mapError fun e => .remote label e.message) ∧
        (k.tellsFiles = false → a' = a) ∧ s'.link.exchange.Bears .empty ∧ s.link.exchange.Bears .empty ∧
        (k.Renews (.told uid a) → s'.link.bench.IsRenewed config.engine ∧ s.link.bench.IsRenewed config.engine) := by
  obtain ⟨p', p, hx', hx, hlike, hexp, hren⟩ := h.post
  have hof := hk p hexp
  cases hlike with
  | empty => exact hof.elim
  | asked v r =>
    obtain rfl : v = uid := hof.1
    exact .inl ⟨Link.collect_waiting hx' (.inl ⟨_, rfl⟩), Link.collect_waiting hx (.inl ⟨_, rfl⟩)⟩
  | answered v heq =>
    obtain rfl : v = uid := hof
    exact .inl ⟨Link.collect_waiting hx' (.inr ⟨_, rfl⟩), Link.collect_waiting hx (.inr ⟨_, rfl⟩)⟩
  | told v heq =>
    obtain rfl : v = uid := hof
    exact .inr ⟨_, _, Link.collect_told hx', Link.collect_told hx, heq, hx'.collected, hx.collected, hren⟩

/-! #### The worker and the router -/

theorem router (h : Ensemble.Like config ρ κ u old heard v' v) :
    Ensemble.Like config ρ κ u old heard { v' with session.link := v'.session.link.route }
      { v with session.link := v.session.link.route } := by
  obtain ⟨p', p, hx', hx, hlike, hexp, hren⟩ := h.post
  rcases hlike.answered_cases with ⟨uid, a', a, heq, rfl, rfl⟩ | ⟨hp', hp⟩
  · obtain ⟨htold', hnext'⟩ := hx'.route_answered
    obtain ⟨htold, hnext⟩ := hx.route_answered
    obtain ⟨hexp', hren'⟩ := hexp.told
    exact ⟨h.session.withLink h.session.bench, h.client, h.exchange.congr hnext' hnext, _, _, htold', htold,
      .told uid heq, hexp', fun hr => hren (hren' hr)⟩
  · have hroute' := hx'.route_idle hp'
    have hroute := hx.route_idle hp
    rw [Link.route, Link.route, hroute', hroute]
    exact h

theorem worker (h : Ensemble.Like config ρ κ u old heard v' v) (notified : Bool) :
    Ensemble.Like config ρ κ u old (heard || (v.session.link.turn Sine.engine notified).bench.active?.isSome)
      { v' with session.link := v'.session.link.turn Sine.engine notified }
      { v with session.link := v.session.link.turn Sine.engine notified } := by
  obtain ⟨p', p, hx', hx, hlike, hexp, hren⟩ := h.post
  have hb := h.session.bench
  rcases hlike.asked_cases with ⟨uid, r, rfl, rfl⟩ | ⟨hp', hp⟩
  · obtain ⟨hordinary, htells⟩ := hexp.asked
    obtain ⟨a', a, ha', ha, heq, hserved⟩ := Bench.handle_like hb hordinary
    obtain ⟨x', hturn', hbears', hnext'⟩ := Link.turn_asked notified hx' hb.life' (Prod.ext ha' rfl) hserved.life'
    obtain ⟨x, hturn, hbears, hnext⟩ := Link.turn_asked notified hx hb.life (Prod.ext ha rfl) hserved.life
    obtain ⟨hexp', hreset⟩ := hexp.answered a
    rw [hturn', hturn]
    refine ⟨h.session.withLink hserved, h.client, h.exchange.congr hnext' hnext, _, _, hbears', hbears,
      .answered uid fun hn => heq (htells.trans hn), hexp', fun hr => ?_⟩
    obtain rfl := hreset hr
    exact Bench.handle_reset_renews hb
  · have hstep := Bench.step_like notified hb
    rw [Link.turn_idle hx' hp' hb.life' hstep.life', Link.turn_idle hx hp hb.life hstep.life]
    refine ⟨h.session.withLink hstep.raise, h.client, h.exchange, p', p, hx', hx, hlike, hexp, fun hr => ?_⟩
    -- without a performance the worker leaves the renewed engine alone
    obtain ⟨⟨f', hf'⟩, f, hf⟩ := hren hr
    rw [Bench.step_of_idle _ _ (Bench.active?_of_hosted hf'), Bench.step_of_idle _ _ (Bench.active?_of_hosted hf)]
    exact ⟨⟨f', hf'⟩, f, hf⟩

end Ensemble.Like

/-! #### The steps of the client -/

section

variable {φ σ ω : Type} {s : Session φ σ ω} {n : Int} {uid : Nat} {l : Link φ σ}

theorem Lifecycle.turn_arm {c : Nat} {t : Transport} (hn : s.number = some n) (ht : s.transport.armStart = (.ok c, t)) :
    turn s .arm = .goesOn (.sendStart n c t.io) { s with transport := t } := by
  simp only [turn]
  split
  · next h =>
    rw [hn] at h
    cases h
  · next h =>
    rw [ht] at h
    cases h
  · next h h' =>
    rw [hn] at h
    rw [ht] at h'
    cases h
    cases h'
    rfl

theorem Lifecycle.turn_sendReset (hn : s.number = some n) (hs : s.link.submit (.reset n) = (.ok uid, l)) :
    turn s .sendReset = .goesOn (.awaitReset uid) { s with link := l } := by
  simp only [turn]
  split
  · next h =>
    rw [hn] at h
    cases h
  · next h =>
    rw [hn] at h
    cases h
    rw [hs]

theorem Invocation.turn_send {op : Operation} {args : List Value} (expired : Bool) (hn : s.number = some n)
    (hs : s.link.submit (.call n op args) = (.ok uid, l)) :
    turn expired s (.send op args) = .goesOn (.awaitReply op uid) { s with link := l } := by
  simp only [turn]
  split
  · next h =>
    rw [hn] at h
    cases h
  · next h =>
    rw [hn] at h
    cases h
    rw [hs]

end

namespace Ensemble.Like

variable {ω : Type} {config : Config} {ρ κ u : Nat} {old : List String} {heard : Bool}
  {v' v : Ensemble Unit Sine ω} {s' s s₁' s₁ : Session Unit Sine ω} {k' k : Client}

/-- Both find a completion open, or resolved, or closed. -/
theorem look (hs : Session.Like config ρ κ old heard s' s) (c : Nat) :
    (Lifecycle.look s' (κ + c) = none ∧ Lifecycle.look s c = none) ∨
      ∃ b s₁' s₁, Lifecycle.look s' (κ + c) = some (b, s₁') ∧ Lifecycle.look s c = some (b, s₁) ∧
        Session.Like config ρ κ old heard s₁' s₁ ∧ s₁'.link = s'.link ∧ s₁.link = s.link := by
  have htake := hs.transport.take c
  have hlook : (s'.transport.completions.take (κ + c)).1 = (s.transport.completions.take c).1 :=
    hs.transport.look c
  rw [Lifecycle.look, Lifecycle.look]
  rcases hc : s.transport.completions.take c with ⟨x, cs⟩
  rcases hc' : s'.transport.completions.take (κ + c) with ⟨x', cs'⟩
  rw [hc, hc'] at htake hlook
  obtain rfl : x' = x := hlook
  cases x' with
  | opened => exact .inl ⟨rfl, rfl⟩
  | resolved q => exact .inr ⟨true, _, _, rfl, rfl, hs.withTransport htake, rfl, rfl⟩
  | closed => exact .inr ⟨false, _, _, rfl, rfl, hs, rfl, rfl⟩

/-- Two steps of a client come to the same: it waits, goes on, or has its answer. -/
inductive Turned (config : Config) (ρ κ u : Nat) (old : List String) (heard : Bool) {τ α : Type} (shift : τ → τ)
    (client : τ → Client) (same : α → α → Prop) :
    Session.Turn τ α (Session Unit Sine ω) → Session.Turn τ α (Session Unit Sine ω) → Prop where
  | blocked : Turned config ρ κ u old heard shift client same .blocked .blocked
  | goesOn {task : τ} {s' s : Session Unit Sine ω}
      (h : Ensemble.Like config ρ κ u old heard ⟨s', client (shift task)⟩ ⟨s, client task⟩) :
      Turned config ρ κ u old heard shift client same (.goesOn (shift task) s') (.goesOn task s)
  | ends {a' a : α} {s' s : Session Unit Sine ω} (ha : same a' a)
      (h : Ensemble.Like config ρ κ u old heard ⟨s', .free⟩ ⟨s, .free⟩) :
      Turned config ρ κ u old heard shift client same (.ends a' s') (.ends a s)

/-- **A conversation goes the same way in both.** -/
theorem lifecycle {task : Lifecycle}
    (h : Ensemble.Like config ρ κ u old heard ⟨s', .lifecycle (task.shift ρ κ u)⟩ ⟨s, .lifecycle task⟩) :
    Turned config ρ κ u old heard (Lifecycle.shift ρ κ u) Client.lifecycle Eq
      (Lifecycle.turn s' (task.shift ρ κ u)) (Lifecycle.turn s task) := by
  have hs := h.session
  have hnumber' : s'.number = some 1 := hs.number'
  have hnumber : s.number = some 1 := hs.number
  cases task with
  | arm =>
    obtain ⟨c, t₁', t₁, harm', harm, hlike⟩ := hs.transport.armStart
    have hafter := h.turnTo (.lifecycle (.sendStart 1 c t₁.io)) (fun _ => id) (hs.withTransport hlike) rfl rfl
      ⟨rfl, hlike.bank⟩ id
    simp only [Lifecycle.shift, Lifecycle.turn_arm hnumber' harm', Lifecycle.turn_arm hnumber harm, hlike.io]
    exact .goesOn hafter
  | sendStart n c io =>
    have hbank : io.bank = 0 := by
      obtain ⟨-, p, -, -, -, hexp, -⟩ := h.post
      exact hexp.2
    obtain ⟨uid, l', l, hsubmit', hsubmit, hafter⟩ :=
      h.submit (fun _ => And.left) (.start n io) (fun uid => .lifecycle (.awaitStart c uid))
        (fun _ => ⟨rfl, n, io, rfl, hbank⟩) (fun _ => id)
    have hsubmit' : s'.link.submit (.start n (io.shift ρ)) = _ := hsubmit'
    simp only [Lifecycle.shift, Lifecycle.turn, hsubmit', hsubmit]
    exact .goesOn hafter
  | awaitStart c uid =>
    rcases h.collect (fun _ => id) Link.startLabel with ⟨hwait', hwait⟩ | ⟨a', a, htold', htold, heq, hx', hx, -⟩
    · simp only [Lifecycle.shift, Lifecycle.turn, hwait', hwait]
      exact .blocked
    · obtain rfl := heq rfl
      simp only [Lifecycle.shift, Lifecycle.turn, htold', htold]
      cases a' with
      | error e =>
        exact .goesOn (quiet (.lifecycle (.disarm (.error (.remote Link.startLabel e.message)))) hs h.exchange hx' hx
          rfl id)
      | ok v =>
        dsimp only [Except.mapError]
        split
        · exact .goesOn (quiet (.lifecycle (.awaitStarted 0 c)) hs h.exchange hx' hx rfl id)
        · exact .goesOn (quiet (.lifecycle (.disarm (.ok v.asStatus))) hs h.exchange hx' hx rfl id)
  | disarm a =>
    exact .ends rfl (h.turnTo .free (fun _ => id) (hs.withTransport hs.transport.dropStart) rfl rfl rfl id)
  | awaitStarted status c =>
    rcases look hs c with ⟨hopen', hopen⟩ | ⟨b, s₁', s₁, hseen', hseen, hlike, hl', hl⟩
    · simp only [Lifecycle.shift, Lifecycle.turn, hopen', hopen]
      exact .blocked
    · simp only [Lifecycle.shift, Lifecycle.turn, hseen', hseen]
      have hafter := h.turnTo .free (fun _ => id) hlike (congrArg Link.exchange hl') (congrArg Link.exchange hl) rfl id
      cases b with
      | true => exact .ends rfl hafter
      | false => exact .ends rfl hafter
  | checkReset =>
    simp only [Lifecycle.shift, Lifecycle.turn, hs.playState]
    split
    · exact .goesOn (h.turnTo (.lifecycle (.requestStop .reset)) (fun _ => id) hs rfl rfl rfl id)
    · exact .goesOn (h.turnTo (.lifecycle .sendReset) (fun _ => id) hs rfl rfl rfl id)
  | requestStop q =>
    rcases hs.requestStop with ⟨hnone', hnone⟩ | ⟨c, t₁', t₁, hstop', hstop, hlike⟩
    · simp only [Lifecycle.shift, Lifecycle.turn, hnone', hnone]
      cases q with
      | stop => exact .ends rfl (h.turnTo .free (fun _ => id) hs rfl rfl rfl id)
      | reset => exact .goesOn (h.turnTo (.lifecycle .sendReset) (fun _ => id) hs rfl rfl rfl id)
    · simp only [Lifecycle.shift, Lifecycle.turn, hstop', hstop]
      exact .goesOn (h.turnTo (.lifecycle (.awaitStopped q c)) (fun _ => id) hlike rfl rfl rfl id)
  | awaitStopped q c =>
    rcases look hs c with ⟨hopen', hopen⟩ | ⟨b, s₁', s₁, hseen', hseen, hlike, hl', hl⟩
    · simp only [Lifecycle.shift, Lifecycle.turn, hopen', hopen]
      exact .blocked
    · simp only [Lifecycle.shift, Lifecycle.turn, hseen', hseen]
      have hafter (k : Client) (hk : k.Expects .empty) (hr : ¬ k.Renews .empty) :=
        h.turnTo k (fun _ => id) hlike (congrArg Link.exchange hl') (congrArg Link.exchange hl) hk hr
      cases b with
      | true =>
        cases q with
        | stop => exact .ends rfl (hafter .free rfl id)
        | reset => exact .goesOn (hafter (.lifecycle .sendReset) rfl id)
      | false => exact .ends rfl (hafter .free rfl id)
  | sendReset =>
    obtain ⟨uid, l', l, hsubmit', hsubmit, hafter⟩ :=
      h.submit (fun _ => id) (.reset 1) (fun uid => .lifecycle (.awaitReset uid)) (fun _ => ⟨rfl, rfl⟩) (fun _ => id)
    simp only [Lifecycle.shift, Lifecycle.turn_sendReset hnumber' hsubmit', Lifecycle.turn_sendReset hnumber hsubmit]
    exact .goesOn hafter
  | awaitReset uid =>
    rcases h.collect (fun _ => id) Link.resetLabel with ⟨hwait', hwait⟩ | ⟨a', a, htold', htold, heq, hx', hx, hren⟩
    · simp only [Lifecycle.shift, Lifecycle.turn, hwait', hwait]
      exact .blocked
    · obtain rfl := heq rfl
      simp only [Lifecycle.shift, Lifecycle.turn, htold', htold]
      cases a' with
      | error e => exact .ends rfl (quiet .free hs h.exchange hx' hx rfl id)
      | ok v =>
        let k : Client := .lifecycle (.returnToStopped v.asStatus)
        have hafter : Ensemble.Like config ρ κ u old heard ⟨s', k.shift ρ κ u⟩ ⟨s, k⟩ :=
          ⟨hs, rfl, h.exchange, .empty, .empty, hx', hx, .empty, rfl, fun _ => hren trivial⟩
        exact .goesOn hafter
  | returnToStopped status =>
    exact .ends rfl (h.turnTo .free (fun _ => id) hs.renew rfl rfl rfl id)

/-- **A call goes the same way in both**, but for an answer that tells something of the files. -/
theorem call {task : Invocation} (expired : Bool)
    (h : Ensemble.Like config ρ κ u old heard ⟨s', .call (task.shift ρ u)⟩ ⟨s, .call task⟩) :
    Turned config ρ κ u old heard (Invocation.shift ρ u) Client.call
      (fun a' a => (Client.call task).tellsFiles = false → a' = a)
      (Invocation.turn expired s' (task.shift ρ u)) (Invocation.turn expired s task) := by
  have hs := h.session
  have hnumber' : s'.number = some 1 := hs.number'
  have hnumber : s.number = some 1 := hs.number
  cases task with
  | look op args =>
    have hio : s'.transport.io.region = ρ + s.transport.io.region := congrArg Handle.region hs.transport.io
    have hsend := h.turnTo (.call (.send op args)) (fun _ => id) hs rfl rfl rfl id
    simp only [Invocation.shift, Invocation.turn, hs.playState, hio]
    split
    · exact .goesOn hsend
    · split
      · exact .goesOn (h.turnTo (.call (.enter op args s.transport.io.region)) (fun _ => id) hs rfl rfl rfl id)
      · split
        · exact .ends (fun _ => rfl) (h.turnTo .free (fun _ => id) hs rfl rfl rfl id)
        · exact .goesOn hsend
  | enter op args i =>
    simp only [Invocation.shift, Invocation.turn, hs.memory.region i]
    split
    · exact .goesOn (h.turnTo (.call (.send op args)) (fun _ => id) hs rfl rfl rfl id)
    · next w _ => exact .goesOn (h.turnTo (.call (.await op args i w)) (fun _ => id) hs rfl rfl rfl id)
  | await op args i w =>
    simp only [Invocation.shift, Invocation.turn, hs.memory.region i]
    split
    · exact .goesOn (h.turnTo (.call (.send op args)) (fun _ => id) hs rfl rfl rfl id)
    · split
      · exact .ends (fun _ => rfl) (h.turnTo .free (fun _ => id) hs rfl rfl rfl id)
      · exact .blocked
  | send op args =>
    obtain ⟨uid, l', l, hsubmit', hsubmit, hafter⟩ :=
      h.submit (fun _ => id) (.call 1 op args) (fun uid => .call (.awaitReply op uid)) (fun _ => ⟨rfl, 1, args, rfl⟩)
        (fun _ => id)
    simp only [Invocation.shift, Invocation.turn_send expired hnumber' hsubmit',
      Invocation.turn_send expired hnumber hsubmit]
    exact .goesOn hafter
  | awaitReply op uid =>
    rcases h.collect (fun _ => id) op.name with ⟨hwait', hwait⟩ | ⟨a', a, htold', htold, heq, hx', hx, -⟩
    · simp only [Invocation.shift, Invocation.turn, hwait', hwait]
      exact .blocked
    · simp only [Invocation.shift, Invocation.turn, htold', htold]
      have hafter := quiet .free hs h.exchange hx' hx rfl id
      cases a' with
      | error e' =>
        cases a with
        | error e =>
          refine .ends (fun hn => ?_) hafter
          cases heq hn
          rfl
        | ok v => exact .ends (fun hn => by cases heq hn) hafter
      | ok v' =>
        cases a with
        | error e => exact .ends (fun hn => by cases heq hn) hafter
        | ok v =>
          refine .ends (fun hn => ?_) hafter
          cases heq hn
          rfl

end Ensemble.Like

end SynthControl
