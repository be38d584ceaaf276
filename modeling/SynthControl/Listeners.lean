import SynthControl.Event

/-!
# Listeners

A registry of listeners by event kind, and the delivery of an event to them.

* `Registry` — for each kind the listeners in the order of registration, under numbers that are never
  used again; `add`, `remove`, `removeAll`, `count`, `targets`;
* `Reaction` — what a listener does when it is called: it may look at and change its surroundings, the
  registry, and emit further events;
* `EventBus` — a registry of such listeners with their surroundings;
* `EventBus.emit?` — delivery to the listeners registered when the emission starts, down to a given depth
  of nested emissions.

Main statements: `entries_add_same`, `entries_remove_same` and the same for another kind (the registry
is one ordered list per kind).
-/

namespace SynthControl

/-- The listeners of every kind that was ever listened to and not cleared since. -/
structure Registry (β : Type) where
  /-- The listeners of a kind with their numbers, oldest first. -/
  lists : List (EventKind × List (Nat × β)) := []
  /-- The number of the next listener. -/
  nextId : Nat := 0

namespace Registry

variable {β : Type}

/-- The listeners of a kind with their numbers, oldest first. -/
def entries (r : Registry β) (k : EventKind) : List (Nat × β) := (r.lists.lookup k).getD []

/-- The listeners of a kind, oldest first. -/
def targets (r : Registry β) (k : EventKind) : List β := (r.entries k).map Prod.snd

/-- The number of listeners of a kind. -/
def count (r : Registry β) (k : EventKind) : Nat := (r.entries k).length

/-- Replace the list of a kind, keeping its place; a kind without a list is put at the end. -/
def put (k : EventKind) (l : List (Nat × β)) :
    List (EventKind × List (Nat × β)) → List (EventKind × List (Nat × β))
  | [] => [(k, l)]
  | p :: ps => if p.1 = k then (k, l) :: ps else p :: put k l ps

/-- Register a listener as the youngest of its kind, under a fresh number. -/
def add (r : Registry β) (k : EventKind) (b : β) : Nat × Registry β :=
  (r.nextId, ⟨put k (r.entries k ++ [(r.nextId, b)]) r.lists, r.nextId + 1⟩)

/-- Forget the listener of a kind with a number; tells whether there was one. -/
def remove (r : Registry β) (k : EventKind) (id : Nat) : Bool × Registry β :=
  if (r.entries k).any fun e => e.1 == id then
    (true, { r with lists := put k ((r.entries k).filter fun e => e.1 != id) r.lists })
  else (false, r)

/-- Forget every listener of a kind. -/
def removeAll (r : Registry β) (k : EventKind) : Registry β :=
  { r with lists := r.lists.filter fun p => p.1 != k }

/-- The registry as text: how many listeners each kind has that is listened to. -/
def describe (r : Registry β) : String :=
  let pair (p : EventKind × List (Nat × β)) : String :=
    "\"" ++ p.1.name ++ "\": " ++ toString p.2.length
  "PublicEvents \x7b listeners: \x7b" ++ ", ".intercalate (r.lists.map pair) ++ "\x7d \x7d"

/-! ### The registry as one list per kind -/

theorem lookup_put_same (k : EventKind) (l : List (Nat × β))
    (ps : List (EventKind × List (Nat × β))) : (put k l ps).lookup k = some l := by
  induction ps with
  | nil => simp [put]
  | cons p ps ih =>
    obtain ⟨j, m⟩ := p
    by_cases h : j = k
    · simp [put, h]
    · simp [put, h, List.lookup_cons, ih, beq_eq_false_iff_ne.2 (Ne.symm h)]

theorem lookup_put_other {k j : EventKind} (h : j ≠ k) (l : List (Nat × β))
    (ps : List (EventKind × List (Nat × β))) : (put k l ps).lookup j = ps.lookup j := by
  induction ps with
  | nil => simp [put, List.lookup_cons, beq_eq_false_iff_ne.2 h]
  | cons p ps ih =>
    obtain ⟨a, m⟩ := p
    by_cases ha : a = k
    · subst ha
      simp [put, List.lookup_cons, beq_eq_false_iff_ne.2 h]
    · simp [put, ha, List.lookup_cons, ih]

/-- A new listener comes last in its kind. -/
theorem entries_add_same (r : Registry β) (k : EventKind) (b : β) :
    (r.add k b).2.entries k = r.entries k ++ [(r.nextId, b)] := by
  simp [add, entries, lookup_put_same]

/-- A new listener changes no other kind. -/
theorem entries_add_other (r : Registry β) {j k : EventKind} (b : β) (h : j ≠ k) :
    (r.add k b).2.entries j = r.entries j := by
  simp [add, entries, lookup_put_other h]

/-- Removing a listener keeps the order of the others. -/
theorem entries_remove_same (r : Registry β) (k : EventKind) (id : Nat) :
    (r.remove k id).2.entries k = (r.entries k).filter fun e => e.1 != id := by
  simp only [remove]
  split
  · simp [entries, lookup_put_same]
  · next h =>
    refine (List.filter_eq_self.2 fun e he => ?_).symm
    have := fun hid => h (List.any_eq_true.2 ⟨e, he, hid⟩)
    simpa using this

/-- Removing a listener changes no other kind. -/
theorem entries_remove_other (r : Registry β) {j k : EventKind} (id : Nat) (h : j ≠ k) :
    (r.remove k id).2.entries j = r.entries j := by
  simp only [remove]
  split
  · simp [entries, lookup_put_other h]
  · rfl

end Registry

/-! ### Reactions -/

/-- What a listener does when it is called, in surroundings `ω` that it shares with the others. -/
inductive Reaction (ω : Type) where
  /-- Nothing more; the surroundings are left like this. -/
  | done (world : ω)
  /-- Register a listener, and go on with its number. -/
  | add (kind : EventKind) (listener : Event → ω → Reaction ω) (next : Nat → Reaction ω)
  /-- Remove a listener, and go on with whether it was registered. -/
  | remove (kind : EventKind) (id : Nat) (next : Bool → Reaction ω)
  | removeAll (kind : EventKind) (next : Reaction ω)
  /-- Emit an event, and go on with the surroundings that its listeners leave. -/
  | emit (event : Event) (world : ω) (next : ω → Reaction ω)

/-- A listener reacts to an event in its surroundings. -/
abbrev Listener (ω : Type) := Event → ω → Reaction ω

/-- A registry of listeners and their surroundings. -/
structure EventBus (ω : Type) where
  registry : Registry (Listener ω) := {}
  world : ω

namespace EventBus

variable {ω : Type}

/-- Carry a reaction out, where `emit?` delivers the events that it emits. -/
def run? (emit? : Event → EventBus ω → Option (EventBus ω)) :
    Reaction ω → Registry (Listener ω) → Option (EventBus ω)
  | .done w, r => some ⟨r, w⟩
  | .add k l next, r =>
    let (id, r') := r.add k l
    run? emit? (next id) r'
  | .remove k id next, r =>
    let (found, r') := r.remove k id
    run? emit? (next found) r'
  | .removeAll k next, r => run? emit? next (r.removeAll k)
  | .emit e w next, r =>
    match emit? e ⟨r, w⟩ with
    | some b => run? emit? (next b.world) b.registry
    | none => none

/-- Call listeners one after another. -/
def deliver? (emit? : Event → EventBus ω → Option (EventBus ω)) (e : Event) :
    List (Listener ω) → EventBus ω → Option (EventBus ω)
  | [], b => some b
  | l :: ls, b =>
    match run? emit? (l e b.world) b.registry with
    | some b' => deliver? emit? e ls b'
    | none => none

/-- Deliver an event to the listeners registered under its kind now, whatever they do to the registry
meanwhile.  `none` if emissions nest deeper than `depth`. -/
def emit? : Nat → Event → EventBus ω → Option (EventBus ω)
  | 0, _, _ => none
  | depth + 1, e, b =>
    match e.kind? with
    | none => some b
    | some k => deliver? (emit? depth) e (b.registry.targets k) b

/-- The depth to which announcements may nest. -/
def nesting : Nat := 10000

/-- Deliver an event; listeners that emit without end are cut off and leave no trace. -/
def emit (e : Event) (b : EventBus ω) : EventBus ω := (emit? nesting e b).getD b

end EventBus
end SynthControl
