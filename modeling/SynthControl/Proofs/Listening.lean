import SynthControl.Listeners
import Mathlib.Data.List.Nodup
import Mathlib.Logic.Function.Basic

/-!
# Listeners that listen and emit while they are called

Listeners may register, remove and clear listeners and emit events while they are called, and so may the listeners
that are called then.  To see who is called, a program is made to keep a journal: every listener that it registers
notes, when it is called, what it does and that it was called, under the number of listeners that were registered
before it.

* `Roster` — the numbers of the listeners of each kind, oldest first; `add`, `remove`, `clear`, `targets`;
* `Act` — what a journal notes, a tree: an emission with the calls that it leads to, a call with all that is done in
  it;
* `Act.after`, `Act.numbers` — the roster after some acts, and the numbers that they hand out, in order;
* `Act.Lawful` — a removal tells whether the listener was registered, and an emission calls the listeners of its kind
  that are registered when it starts, in order, once each;
* `Reaction.noted`, `Reaction.journal` — a program that keeps a journal;
* `Registry.Told` — what came of a registry is what some lawful acts make of it;
* `run?_noted`, `deliver?_noted`, `emit?_noted` — **a program that keeps a journal does what it did before, and the
  journal is lawful**;
* `EventBus.journal_lawful` — **for every program**, at every depth that is enough for it.
-/

namespace SynthControl

variable {β γ ω : Type}

/-! ### One ordered list of numbers for each kind -/

/-- For each kind the numbers of its listeners, oldest first. -/
abbrev Roster := EventKind → List Nat

namespace Roster

/-- Nobody listens. -/
def empty : Roster := fun _ => []

/-- A listener is registered as the youngest of its kind. -/
def add (R : Roster) (k : EventKind) (id : Nat) : Roster := Function.update R k (R k ++ [id])

/-- One listener is forgotten. -/
def remove (R : Roster) (k : EventKind) (id : Nat) : Roster := Function.update R k ((R k).erase id)

def clear (R : Roster) (k : EventKind) : Roster := Function.update R k []

/-- The listeners that an event is for: those of its kind, nobody if it has none. -/
def targets (R : Roster) (e : Event) : List Nat :=
  match e.kind? with
  | none => []
  | some k => R k

end Roster

/-! ### Journals -/

/-- An entry of a journal. -/
inductive Act where
  | added (kind : EventKind) (id : Nat)
  | removed (kind : EventKind) (id : Nat) (found : Bool)
  | cleared (kind : EventKind)
  /-- A listener was called, and did this. -/
  | called (id : Nat) (within : List Act)
  /-- An event was emitted, and this was done until the emission was over. -/
  | emitted (event : Event) (calls : List Act)

namespace Act

/-- The listener that was called. -/
def called? : Act → Option Nat
  | called id _ => some id
  | _ => none

mutual

/-- The roster after an act. -/
def after : Act → Roster → Roster
  | added k id, R => R.add k id
  | removed k id _, R => R.remove k id
  | cleared k, R => R.clear k
  | called _ within, R => afterAll within R
  | emitted _ calls, R => afterAll calls R

/-- The roster after some acts. -/
def afterAll : List Act → Roster → Roster
  | [], R => R
  | a :: as, R => afterAll as (a.after R)

end

mutual

/-- The numbers that an act hands out, in order. -/
def numbers : Act → List Nat
  | added _ id => [id]
  | removed _ _ _ | cleared _ => []
  | called _ within => numbersAll within
  | emitted _ calls => numbersAll calls

/-- The numbers that some acts hand out, in order. -/
def numbersAll : List Act → List Nat
  | [] => []
  | a :: as => a.numbers ++ numbersAll as

end

mutual

/-- **The law of listeners**, for an act that finds this roster. -/
def Lawful : Act → Roster → Prop
  | added _ _, _ | cleared _, _ => True
  | removed k id found, R => found = true ↔ id ∈ R k
  | called _ within, R => LawfulAll within R
  | emitted e calls, R =>
    calls.map called? = (R.targets e).map some ∧ (R.targets e).Nodup ∧ LawfulAll calls R

/-- Acts are lawful one after another. -/
def LawfulAll : List Act → Roster → Prop
  | [], _ => True
  | a :: as, R => a.Lawful R ∧ LawfulAll as (a.after R)

end

theorem afterAll_append (as bs : List Act) (R : Roster) : afterAll (as ++ bs) R = afterAll bs (afterAll as R) := by
  induction as generalizing R with
  | nil => rfl
  | cons a as ih => exact ih (a.after R)

theorem numbersAll_append (as bs : List Act) : numbersAll (as ++ bs) = numbersAll as ++ numbersAll bs := by
  induction as with
  | nil => rfl
  | cons a as ih => rw [List.cons_append, numbersAll, ih, numbersAll, List.append_assoc]

theorem lawfulAll_append {as bs : List Act} {R : Roster} (ha : LawfulAll as R) (hb : LawfulAll bs (afterAll as R)) :
    LawfulAll (as ++ bs) R := by
  induction as generalizing R with
  | nil => exact hb
  | cons a as ih => exact ⟨ha.1, ih ha.2 hb⟩

end Act

/-! ### Keeping a journal -/

/-- Surroundings in which the number of registered listeners is counted and a journal is kept. -/
structure Noted (ω : Type) where
  world : ω
  /-- The listeners that were registered so far. -/
  count : Nat
  /-- The journal of the emission that goes on. -/
  acts : List Act

/-- A program that keeps a journal: `count` listeners were registered before, it has done `acts`, and at its end it
leaves the journal that `finish` makes of its own. -/
def Reaction.noted (finish : List Act → List Act) : Reaction ω → Nat → List Act → Reaction (Noted ω)
  | .done w, count, acts => .done ⟨w, count, finish acts⟩
  | .add k l next, count, acts =>
    .add k (fun e v => (l e v.world).noted (fun within => v.acts ++ [.called count within]) v.count [])
      fun id => (next id).noted finish (count + 1) (acts ++ [.added k id])
  | .remove k id next, count, acts =>
    .remove k id fun found => (next found).noted finish count (acts ++ [.removed k id found])
  | .removeAll k next, count, acts => .removeAll k (next.noted finish count (acts ++ [.cleared k]))
  | .emit e w next, count, acts =>
    .emit e ⟨w, count, []⟩ fun v => (next v.world).noted finish v.count (acts ++ [.emitted e v.acts])

/-- A listener that notes its calls as those of `id`. -/
def Listener.noted (id : Nat) (l : Listener ω) : Listener (Noted ω) :=
  fun e v => (l e v.world).noted (fun within => v.acts ++ [.called id within]) v.count []

/-- A program that keeps a journal from its beginning, when nobody listens. -/
def Reaction.journal (p : Reaction ω) : Reaction (Noted ω) := p.noted id 0 []

/-! ### Registries -/

namespace Registry

/-- The numbers of the listeners of each kind. -/
def roster (r : Registry β) : Roster := fun k => (r.entries k).map Prod.fst

/-- The numbers of a kind are different ones that were handed out. -/
structure Sound (r : Registry β) : Prop where
  below : ∀ k, ∀ id ∈ r.roster k, id < r.nextId
  nodup : ∀ k, (r.roster k).Nodup

/-- Another listener in the place of each. -/
def map (f : Nat → β → γ) (r : Registry β) : Registry γ :=
  ⟨r.lists.map fun p => (p.1, p.2.map fun q => (q.1, f q.1 q.2)), r.nextId⟩

section

variable (f : Nat → β → γ) (r : Registry β) (k : EventKind)

theorem entries_map : (r.map f).entries k = (r.entries k).map fun q => (q.1, f q.1 q.2) := by
  rw [entries, entries, map]
  induction r.lists with
  | nil => rfl
  | cons p ps ih =>
    obtain ⟨j, l⟩ := p
    rw [List.map_cons, List.lookup_cons, List.lookup_cons]
    cases hkj : k == j with
    | true => rfl
    | false => exact ih

theorem targets_map : (r.map f).targets k = (r.entries k).map fun q => f q.1 q.2 := by
  rw [targets, entries_map, List.map_map]
  rfl

theorem put_map (l : List (Nat × β)) (ps : List (EventKind × List (Nat × β))) :
    put k (l.map fun q => (q.1, f q.1 q.2)) (ps.map fun p => (p.1, p.2.map fun q => (q.1, f q.1 q.2))) =
      (put k l ps).map fun p => (p.1, p.2.map fun q => (q.1, f q.1 q.2)) := by
  induction ps with
  | nil => rfl
  | cons p ps ih =>
    rw [List.map_cons, put, put]
    split
    · rfl
    · rw [ih]
      rfl

theorem add_map (b : β) : (r.map f).add k (f r.nextId b) = (r.nextId, (r.add k b).2.map f) := by
  have hentries : (r.map f).entries k ++ [((r.map f).nextId, f r.nextId b)] =
      (r.entries k ++ [(r.nextId, b)]).map fun q => (q.1, f q.1 q.2) := by
    rw [entries_map, List.map_append]
    rfl
  rw [add, hentries]
  exact congrArg (fun ps => (r.nextId, (⟨ps, r.nextId + 1⟩ : Registry γ))) (put_map f k _ r.lists)

theorem remove_map (id : Nat) : (r.map f).remove k id = ((r.remove k id).1, (r.remove k id).2.map f) := by
  have hany : ((r.map f).entries k).any (fun e => e.1 == id) = (r.entries k).any fun e => e.1 == id := by
    rw [entries_map, List.any_map]
    rfl
  have hfilter : ((r.map f).entries k).filter (fun e => e.1 != id) =
      ((r.entries k).filter fun e => e.1 != id).map fun q => (q.1, f q.1 q.2) := by
    rw [entries_map, List.filter_map]
    rfl
  rw [remove, remove, hany, hfilter]
  split
  · exact congrArg (fun ps => (true, (⟨ps, r.nextId⟩ : Registry γ))) (put_map f k _ r.lists)
  · rfl

theorem removeAll_map : (r.map f).removeAll k = (r.removeAll k).map f := by
  rw [removeAll, removeAll, map, map, List.filter_map]
  rfl

end

section

variable (r : Registry β) (k : EventKind)

theorem lookup_filter_other {j : EventKind} (h : j ≠ k) (ps : List (EventKind × List (Nat × β))) :
    (ps.filter fun p => p.1 != k).lookup j = ps.lookup j := by
  induction ps with
  | nil => rfl
  | cons p ps ih =>
    obtain ⟨i, l⟩ := p
    by_cases hi : i = k
    · subst hi
      simp [List.lookup_cons, beq_eq_false_iff_ne.2 h, ih]
    · simp [hi, List.lookup_cons, ih]

/-- Clearing leaves no listener of the kind, and the others alone. -/
theorem roster_removeAll : (r.removeAll k).roster = r.roster.clear k := by
  funext j
  by_cases hj : j = k
  · subst hj
    have hnone : (r.lists.filter fun p => p.1 != j).lookup j = none := by
      simp only [List.lookup_eq_none_iff, List.mem_filter, bne_iff_ne, ne_eq]
      exact fun p hp => Ne.symm hp.2
    rw [Roster.clear, Function.update_self, roster, entries, removeAll, hnone]
    rfl
  · rw [Roster.clear, Function.update_of_ne hj, roster, entries, removeAll, lookup_filter_other k hj]
    rfl

theorem roster_add (b : β) : (r.add k b).2.roster = r.roster.add k r.nextId := by
  funext j
  by_cases hj : j = k
  · subst hj
    rw [Roster.add, Function.update_self, roster, entries_add_same, List.map_append]
    rfl
  · rw [Roster.add, Function.update_of_ne hj, roster, entries_add_other r b hj]
    rfl

/-- Removing a listener leaves all others: no two of them have its number. -/
theorem roster_remove {r : Registry β} (hr : r.Sound) (id : Nat) :
    (r.remove k id).2.roster = r.roster.remove k id := by
  funext j
  by_cases hj : j = k
  · subst hj
    rw [Roster.remove, Function.update_self, (hr.nodup j).erase_eq_filter, roster, entries_remove_same, roster,
      List.filter_map]
    rfl
  · rw [Roster.remove, Function.update_of_ne hj, roster, entries_remove_other r id hj]
    rfl

/-- A removal tells whether the listener was registered. -/
theorem remove_fst (id : Nat) : (r.remove k id).1 = true ↔ id ∈ r.roster k := by
  have hany : (r.entries k).any (fun e => e.1 == id) = true ↔ id ∈ r.roster k := by
    simp [roster, List.any_eq_true]
  rw [← hany, remove]
  split <;> simp_all

theorem remove_nextId (id : Nat) : (r.remove k id).2.nextId = r.nextId := by
  rw [remove]
  split <;> rfl

end

/-! ### What came of a registry -/

/-- A registry came of another one by some lawful acts. -/
structure Told (r : Registry β) (acts : List Act) (r' : Registry β) : Prop where
  sound : r'.Sound
  roster_eq : r'.roster = Act.afterAll acts r.roster
  lawful : Act.LawfulAll acts r.roster
  nextId_eq : r'.nextId = r.nextId + (Act.numbersAll acts).length
  numbers_eq : Act.numbersAll acts = List.range' r.nextId (Act.numbersAll acts).length

namespace Told

variable {r r' r'' : Registry β} {as bs : List Act}

theorem refl (hr : r.Sound) : Told r [] r := ⟨hr, rfl, trivial, rfl, rfl⟩

theorem trans (h : Told r as r') (h' : Told r' bs r'') : Told r (as ++ bs) r'' := by
  refine ⟨h'.sound, ?_, Act.lawfulAll_append h.lawful (h.roster_eq ▸ h'.lawful), ?_, ?_⟩
  · rw [h'.roster_eq, h.roster_eq, Act.afterAll_append]
  · rw [h'.nextId_eq, h.nextId_eq, Act.numbersAll_append, List.length_append, Nat.add_assoc]
  · rw [Act.numbersAll_append, List.length_append, ← List.range'_append_1, ← h.nextId_eq, ← h.numbers_eq,
      ← h'.numbers_eq]

/-- One act that hands out no number. -/
theorem act {a : Act} (hr' : r'.Sound) (hroster : r'.roster = a.after r.roster) (hl : a.Lawful r.roster)
    (hn : r'.nextId = r.nextId) (ha : a.numbers = []) : Told r [a] r' := by
  have hnumbers : Act.numbersAll [a] = [] := by
    rw [Act.numbersAll, ha]
    rfl
  exact ⟨hr', hroster, ⟨hl, trivial⟩, by rw [hn, hnumbers]; rfl, by rw [hnumbers]; rfl⟩

theorem add (hr : r.Sound) (k : EventKind) (b : β) : Told r [.added k r.nextId] (r.add k b).2 := by
  refine ⟨⟨fun j id hid => ?_, fun j => ?_⟩, roster_add r k b, ⟨trivial, trivial⟩, rfl, rfl⟩
  · rw [roster_add, Roster.add] at hid
    by_cases hj : j = k
    · subst hj
      rw [Function.update_self] at hid
      rcases List.mem_append.1 hid with hid | hid
      · exact Nat.lt_succ_of_lt (hr.below j id hid)
      · obtain rfl := List.mem_singleton.1 hid
        exact Nat.lt_succ_self _
    · rw [Function.update_of_ne hj] at hid
      exact Nat.lt_succ_of_lt (hr.below j id hid)
  · rw [roster_add, Roster.add]
    by_cases hj : j = k
    · subst hj
      rw [Function.update_self]
      refine (hr.nodup j).append (List.nodup_singleton _) fun id hid hnew => ?_
      obtain rfl := List.mem_singleton.1 hnew
      exact Nat.lt_irrefl _ (hr.below j _ hid)
    · rw [Function.update_of_ne hj]
      exact hr.nodup j

/-- A kind keeps some of its listeners, in their order. -/
theorem sound_update (hr : r.Sound) {k : EventKind} {ids : List Nat} (hs : ids.Sublist (r.roster k))
    (hroster : r'.roster = Function.update r.roster k ids) (hn : r'.nextId = r.nextId) : r'.Sound := by
  have hsub : ∀ j, (r'.roster j).Sublist (r.roster j) := by
    intro j
    rw [hroster]
    by_cases hj : j = k
    · subst hj
      rwa [Function.update_self]
    · rw [Function.update_of_ne hj]
  exact ⟨fun j id hid => hn ▸ hr.below j id ((hsub j).subset hid), fun j => (hr.nodup j).sublist (hsub j)⟩

theorem remove (hr : r.Sound) (k : EventKind) (id : Nat) :
    Told r [.removed k id (r.remove k id).1] (r.remove k id).2 :=
  act (sound_update hr List.erase_sublist (roster_remove k hr id) (remove_nextId r k id)) (roster_remove k hr id)
    (remove_fst r k id) (remove_nextId r k id) rfl

theorem removeAll (hr : r.Sound) (k : EventKind) : Told r [.cleared k] (r.removeAll k) :=
  act (sound_update hr (List.nil_sublist _) (roster_removeAll r k) rfl) (roster_removeAll r k) trivial rfl rfl

/-- What a listener did while it was called. -/
theorem called (h : Told r as r') (id : Nat) : Told r [.called id as] r' := by
  have hnumbers : Act.numbersAll [.called id as] = Act.numbersAll as := List.append_nil _
  exact ⟨h.sound, h.roster_eq, ⟨h.lawful, trivial⟩, hnumbers ▸ h.nextId_eq, hnumbers ▸ h.numbers_eq⟩

/-- What was done until an emission was over. -/
theorem emitted (hr : r.Sound) (h : Told r as r') {e : Event}
    (hc : as.map Act.called? = (r.roster.targets e).map some) : Told r [.emitted e as] r' := by
  have hnumbers : Act.numbersAll [.emitted e as] = Act.numbersAll as := List.append_nil _
  have hnodup : (r.roster.targets e).Nodup := by
    rw [Roster.targets]
    cases e.kind? with
    | none => exact List.nodup_nil
    | some k => exact hr.nodup k
  exact ⟨h.sound, h.roster_eq, ⟨⟨hc, hnodup, h.lawful⟩, trivial⟩, hnumbers ▸ h.nextId_eq, hnumbers ▸ h.numbers_eq⟩

end Told

/-- The same registry, whose listeners note their calls. -/
def noted (r : Registry (Listener ω)) : Registry (Listener (Noted ω)) := r.map Listener.noted

end Registry

/-! ### The journal of a run -/

namespace EventBus

/-- The surroundings of a run and of the one that keeps a journal: both have gone too deep, or both have come to the
same end, and then some lawful acts with a property were noted. -/
inductive Agree (r : Registry (Listener ω)) (P : List Act → Prop) (finish : List Act → List Act) :
    Option (EventBus ω) → Option (EventBus (Noted ω)) → Prop where
  | tooDeep : Agree r P finish none none
  | ended {b : EventBus ω} {acts : List Act} (h : r.Told acts b.registry) (hp : P acts) :
      Agree r P finish (some b) (some ⟨b.registry.noted, b.world, b.registry.nextId, finish acts⟩)

/-- An agreement from a later registry, after which some acts had been noted. -/
theorem Agree.after {r r' : Registry (Listener ω)} {P Q : List Act → Prop} {finish finish' : List Act → List Act}
    {o : Option (EventBus ω)} {o' : Option (EventBus (Noted ω))} {as : List Act} (h : Agree r' P finish' o o')
    (ht : r.Told as r') (hf : ∀ bs, finish' bs = finish (as ++ bs)) (hp : ∀ bs, P bs → Q (as ++ bs)) :
    Agree r Q finish o o' := by
  cases h with
  | tooDeep => exact .tooDeep
  | @ended b bs h hP =>
    rw [hf]
    exact .ended (ht.trans h) (hp bs hP)

/-- An agreement after one act that was noted. -/
theorem Agree.noting {r r' : Registry (Listener ω)} {finish : List Act → List Act} {o : Option (EventBus ω)}
    {o' : Option (EventBus (Noted ω))} {acts : List Act} {a : Act}
    (h : Agree r' (fun _ => True) (fun new => finish (acts ++ [a] ++ new)) o o') (ht : r.Told [a] r') :
    Agree r (fun _ => True) (fun new => finish (acts ++ new)) o o' := by
  refine h.after (Q := fun _ => True) ht (fun bs => ?_) fun _ => id
  rw [List.append_assoc]

/-- A delivery and the one that keeps a journal agree, wherever they start: the listeners of the roster are
called. -/
def Delivers (emit : Event → EventBus ω → Option (EventBus ω))
    (emit' : Event → EventBus (Noted ω) → Option (EventBus (Noted ω))) : Prop :=
  ∀ (e : Event) {r : Registry (Listener ω)} (w : ω), r.Sound →
    Agree r (fun calls => calls.map Act.called? = (r.roster.targets e).map some) id
      (emit e ⟨r, w⟩) (emit' e ⟨r.noted, w, r.nextId, []⟩)

variable {emit : Event → EventBus ω → Option (EventBus ω)}
  {emit' : Event → EventBus (Noted ω) → Option (EventBus (Noted ω))}

/-- **Every program does the same when it keeps a journal**, and the journal is lawful. -/
theorem run?_noted (he : Delivers emit emit') (finish : List Act → List Act) (p : Reaction ω)
    {r : Registry (Listener ω)} (hr : r.Sound) (acts : List Act) :
    Agree r (fun _ => True) (fun new => finish (acts ++ new))
      (run? emit p r) (run? emit' (p.noted finish r.nextId acts) r.noted) := by
  induction p generalizing r acts with
  | done w =>
    have h : Agree r (fun _ => True) (fun new => finish (acts ++ new)) (some ⟨r, w⟩)
        (some ⟨r.noted, w, r.nextId, finish (acts ++ [])⟩) := .ended (b := ⟨r, w⟩) (.refl hr) trivial
    rwa [List.append_nil] at h
  | add k l next _ ih =>
    have ht := Registry.Told.add hr k l
    have hrun : run? emit' ((Reaction.add k l next).noted finish r.nextId acts) r.noted =
        run? emit' ((next r.nextId).noted finish (r.nextId + 1) (acts ++ [.added k r.nextId]))
          (r.add k l).2.noted := by
      have hadd : r.noted.add k (Listener.noted r.nextId l) = (r.nextId, (r.add k l).2.noted) :=
        Registry.add_map Listener.noted r k l
      show run? emit' ((next (r.noted.add k (Listener.noted r.nextId l)).1).noted finish (r.nextId + 1)
        (acts ++ [.added k (r.noted.add k (Listener.noted r.nextId l)).1]))
          (r.noted.add k (Listener.noted r.nextId l)).2 = _
      rw [hadd]
    rw [hrun]
    exact (ih r.nextId ht.sound (acts ++ [.added k r.nextId])).noting ht
  | remove k n next ih =>
    have ht := Registry.Told.remove hr k n
    have hrun : run? emit' ((Reaction.remove k n next).noted finish r.nextId acts) r.noted =
        run? emit' ((next (r.remove k n).1).noted finish (r.remove k n).2.nextId
          (acts ++ [.removed k n (r.remove k n).1])) (r.remove k n).2.noted := by
      have hremove : r.noted.remove k n = ((r.remove k n).1, (r.remove k n).2.noted) :=
        Registry.remove_map Listener.noted r k n
      rw [Registry.remove_nextId]
      show run? emit' ((next (r.noted.remove k n).1).noted finish r.nextId
        (acts ++ [.removed k n (r.noted.remove k n).1])) (r.noted.remove k n).2 = _
      rw [hremove]
    rw [hrun]
    exact (ih _ ht.sound (acts ++ [.removed k n (r.remove k n).1])).noting ht
  | removeAll k next ih =>
    have ht := Registry.Told.removeAll hr k
    have hrun : run? emit' ((Reaction.removeAll k next).noted finish r.nextId acts) r.noted =
        run? emit' (next.noted finish (r.removeAll k).nextId (acts ++ [.cleared k])) (r.removeAll k).noted := by
      have hremove : r.noted.removeAll k = (r.removeAll k).noted := Registry.removeAll_map Listener.noted r k
      rw [← hremove]
      rfl
    rw [hrun]
    exact (ih ht.sound (acts ++ [.cleared k])).noting ht
  | emit e w next ih =>
    have hemit := he e w hr
    rw [Reaction.noted, run?, run?]
    generalize emit e ⟨r, w⟩ = o, emit' e ⟨r.noted, w, r.nextId, []⟩ = o' at hemit ⊢
    cases hemit with
    | tooDeep => exact .tooDeep
    | @ended b calls h hcalls =>
      exact (ih b.world h.sound (acts ++ [.emitted e calls])).noting (.emitted hr h hcalls)

/-- **Listeners are called one after another**, whatever becomes of the registry meanwhile. -/
theorem deliver?_noted (he : Delivers emit emit') (e : Event) (ls : List (Nat × Listener ω))
    {r : Registry (Listener ω)} (w : ω) (hr : r.Sound) (acts : List Act) :
    Agree r (fun calls => calls.map Act.called? = (ls.map Prod.fst).map some) (fun calls => acts ++ calls)
      (deliver? emit e (ls.map Prod.snd) ⟨r, w⟩)
      (deliver? emit' e (ls.map fun q => Listener.noted q.1 q.2) ⟨r.noted, w, r.nextId, acts⟩) := by
  induction ls generalizing r w acts with
  | nil =>
    have h : Agree r (fun calls => calls.map Act.called? = []) (fun calls => acts ++ calls) (some ⟨r, w⟩)
        (some ⟨r.noted, w, r.nextId, acts ++ []⟩) := .ended (b := ⟨r, w⟩) (.refl hr) rfl
    rwa [List.append_nil] at h
  | cons q ls ih =>
    obtain ⟨id, l⟩ := q
    simp only [List.map_cons]
    rw [deliver?, deliver?]
    -- what the first one does is noted as its call
    have hrun := run?_noted he (fun within => acts ++ [.called id within]) (l e w) hr []
    change Agree r _ _ _ (run? emit' (Listener.noted id l e ⟨w, r.nextId, acts⟩) r.noted) at hrun
    dsimp only
    generalize run? emit (l e w) r = o, run? emit' (Listener.noted id l e ⟨w, r.nextId, acts⟩) r.noted = o' at hrun ⊢
    cases hrun with
    | tooDeep => exact .tooDeep
    | @ended b within h _ =>
      refine (ih b.world h.sound (acts ++ [.called id within])).after (h.called id) (fun bs => ?_) fun bs hbs => ?_
      · rw [List.append_assoc]
      · rw [List.map_append, hbs]
        rfl

/-- **At every depth** an event goes to the listeners that are registered when its emission starts. -/
theorem emit?_noted (depth : Nat) :
    Delivers (emit? depth : Event → EventBus ω → Option (EventBus ω)) (emit? depth) := by
  induction depth with
  | zero => exact fun _ _ _ _ => .tooDeep
  | succ depth ih =>
    intro e r w hr
    rw [emit?, emit?, Roster.targets]
    cases e.kind? with
    | none => exact .ended (b := ⟨r, w⟩) (.refl hr) rfl
    | some k =>
      have htargets : r.noted.targets k = (r.entries k).map fun q => Listener.noted q.1 q.2 :=
        Registry.targets_map Listener.noted r k
      have h := deliver?_noted ih e (r.entries k) w hr []
      rw [← htargets] at h
      exact h

/-! ### Depth -/

/-- A delivery that goes at least as deep. -/
def Extends (emit deeper : Event → EventBus ω → Option (EventBus ω)) : Prop :=
  ∀ e b b', emit e b = some b' → deeper e b = some b'

theorem run?_extends {deeper : Event → EventBus ω → Option (EventBus ω)} (he : Extends emit deeper) (p : Reaction ω)
    {r : Registry (Listener ω)} {b : EventBus ω} (h : run? emit p r = some b) : run? deeper p r = some b := by
  induction p generalizing r with
  | done w => exact h
  | add k l next _ ih => exact ih _ h
  | remove k id next ih => exact ih _ h
  | removeAll k next ih => exact ih h
  | emit e w next ih =>
    rw [run?] at h ⊢
    cases hb : emit e ⟨r, w⟩ with
    | none =>
      rw [hb] at h
      cases h
    | some b' =>
      rw [hb] at h
      rw [he e _ _ hb]
      exact ih _ h

theorem deliver?_extends {deeper : Event → EventBus ω → Option (EventBus ω)} (he : Extends emit deeper) (e : Event)
    (ls : List (Listener ω)) {b b' : EventBus ω} (h : deliver? emit e ls b = some b') :
    deliver? deeper e ls b = some b' := by
  induction ls generalizing b with
  | nil => exact h
  | cons l ls ih =>
    rw [deliver?] at h ⊢
    cases hb : run? emit (l e b.world) b.registry with
    | none =>
      rw [hb] at h
      cases h
    | some b₁ =>
      rw [hb] at h
      rw [run?_extends he _ hb]
      exact ih h

/-- **Who may go deeper does the same**: only emissions without end are cut off somewhere. -/
theorem emit?_extends {depth deeper : Nat} (hd : depth ≤ deeper) :
    Extends (emit? depth : Event → EventBus ω → Option (EventBus ω)) (emit? deeper) := by
  induction depth generalizing deeper with
  | zero => exact fun _ _ _ h => nomatch h
  | succ depth ih =>
    cases deeper with
    | zero => exact absurd hd (Nat.not_succ_le_zero depth)
    | succ deeper =>
      intro e b b' h
      rw [emit?] at h ⊢
      cases hk : e.kind? with
      | none =>
        rw [hk] at h
        exact h
      | some k =>
        rw [hk] at h
        exact deliver?_extends (ih (Nat.le_of_succ_le_succ hd)) e _ h

/-- An emission that comes to an end at the usual depth is carried out. -/
theorem emit_eq {depth : Nat} {e : Event} {b b' : EventBus ω} (h : emit? depth e b = some b') (hd : depth ≤ nesting) :
    b.emit e = b' := by
  rw [emit, emit?_extends hd e b b' h]
  rfl

/-- **The law of listeners.**  For every program, whatever its listeners do while they are called, and every depth
at which its emissions come to an end:

* it does the same at every greater depth, and when it keeps a journal;
* at its end the listeners of each kind are those of the roster that its acts leave, in this order;
* the journal is lawful: a removal tells whether the number was registered under the kind, and takes only this one
  away; an emission calls the listeners that are registered under its kind at its start, in order and once each,
  whatever is done meanwhile, and nobody if it has no kind;
* the numbers that are handed out are `0`, `1`, `2`, … over all kinds. -/
theorem journal_lawful (p : Reaction ω) {depth : Nat} {b : EventBus ω} (h : run? (emit? depth) p {} = some b) :
    (∀ deeper, depth ≤ deeper → run? (emit? deeper) p {} = some b) ∧
    ∃ acts : List Act,
      run? (emit? depth) p.journal {} = some ⟨b.registry.noted, b.world, b.registry.nextId, acts⟩ ∧
      b.registry.roster = Act.afterAll acts .empty ∧
      Act.LawfulAll acts .empty ∧
      Act.numbersAll acts = List.range b.registry.nextId := by
  refine ⟨fun deeper hd => run?_extends (emit?_extends hd) p h, ?_⟩
  have hempty : ({} : Registry (Listener ω)).Sound := by
    refine ⟨fun k id hid => ?_, fun k => List.nodup_nil⟩
    cases hid
  have hrun := run?_noted (emit?_noted depth) id p hempty []
  rw [h] at hrun
  generalize ho : run? (emit? depth) (p.noted id ({} : Registry (Listener ω)).nextId []) _ = o at hrun
  cases hrun with
  | @ended _ acts ht _ =>
    refine ⟨acts, ho, ht.roster_eq, ht.lawful, ?_⟩
    rw [ht.numbers_eq, ht.nextId_eq, List.range_eq_range', Nat.zero_add]

/-- Three listeners: the first removes itself, registers another one and emits; the second is called all the same,
although the third has cleared their kind by then. -/
def meddlers : Reaction Unit :=
  let first : Listener Unit := fun _ _ =>
    .remove .message 0 fun _ => .add .message (fun _ w => .done w) fun _ => .emit (.state .realtimeStarted) () .done
  .add .message first fun _ =>
  .add .message (fun _ w => .done w) fun _ =>
  .add .realtimeStarted (fun _ w => .removeAll .message (.done w)) fun _ =>
  .emit (.message "tick") () fun w =>
  .remove .message 0 fun _ => .done w

/-- What the journal of `meddlers` says. -/
theorem journal_lawful_meddlers :
    let acts : List Act :=
      [.added .message 0, .added .message 1, .added .realtimeStarted 2,
        .emitted (.message "tick")
          [.called 0 [.removed .message 0 true, .added .message 3,
            .emitted (.state .realtimeStarted) [.called 2 [.cleared .message]]],
           .called 1 []],
        .removed .message 0 false]
    ∃ b : EventBus Unit, run? (emit? 2) meddlers {} = some b ∧ b.registry.nextId = 4 ∧
      run? (emit? 2) meddlers.journal {} = some ⟨b.registry.noted, b.world, b.registry.nextId, acts⟩ ∧
      b.registry.roster = Act.afterAll acts .empty ∧ Act.LawfulAll acts .empty := by
  intro acts
  have hrun : ∃ b : EventBus Unit, run? (emit? 2) meddlers {} = some b ∧ b.registry.nextId = 4 ∧
      (run? (emit? 2) meddlers.journal {}).map (·.world.acts) = some acts := ⟨_, rfl, rfl, rfl⟩
  obtain ⟨b, hb, hnext, hacts⟩ := hrun
  obtain ⟨-, acts', hjournal, hroster, hlawful, -⟩ := journal_lawful meddlers hb
  obtain rfl : acts' = acts := by
    rw [hjournal] at hacts
    exact Option.some.inj hacts
  exact ⟨b, hb, hnext, hjournal, hroster, hlawful⟩

end EventBus
end SynthControl
