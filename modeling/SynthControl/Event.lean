import SynthControl.PlayState

/-!
# Public events

What a performance announces: that it entered a phase, and what the engine printed.

* `EventKind` — what one can listen to: every phase but `stopped`, and engine messages;
* `Event` — an announcement, and `Event.kind?`, the kind it is announced under.

Main statements: `EventKind.ofName?_eq_some_iff`, `Event.kind?_eq_none_iff` (only `stopped` is not
announced).
-/

namespace SynthControl

/-- What one can listen to. -/
inductive EventKind where
  | realtimeStarted
  | realtimePaused
  | realtimeResumed
  | realtimeEnded
  | renderStarted
  | renderEnded
  | message
  deriving DecidableEq, Repr

namespace EventKind

/-- Every kind. -/
def all : List EventKind :=
  [realtimeStarted, realtimePaused, realtimeResumed, realtimeEnded, renderStarted, renderEnded,
    message]

/-- The kind under which a phase is announced; `stopped` is not announced. -/
def ofPlayState? : PlayState → Option EventKind
  | .stopped => none
  | .realtimeStarted => some realtimeStarted
  | .realtimePaused => some realtimePaused
  | .realtimeResumed => some realtimeResumed
  | .realtimeEnded => some realtimeEnded
  | .renderStarted => some renderStarted
  | .renderEnded => some renderEnded

/-- The public name of a kind. -/
def name : EventKind → String
  | realtimeStarted => PlayState.realtimeStarted.name
  | realtimePaused => PlayState.realtimePaused.name
  | realtimeResumed => PlayState.realtimeResumed.name
  | realtimeEnded => PlayState.realtimeEnded.name
  | renderStarted => PlayState.renderStarted.name
  | renderEnded => PlayState.renderEnded.name
  | message => "message"

/-- The kind with a public name. -/
def ofName? (s : String) : Option EventKind := all.find? fun k => k.name == s

/-- What is said about a text that is not the name of a kind. -/
def unknown (s : String) : String := "unknown event: " ++ s

/-- Reading accepts exactly the public names. -/
theorem ofName?_eq_some_iff {s : String} {k : EventKind} : ofName? s = some k ↔ k.name = s := by
  constructor
  · intro h
    simpa using List.find?_some h
  · rintro rfl
    cases k <;> decide

end EventKind

/-- An announcement. -/
inductive Event where
  | state (p : PlayState)
  | message (line : String)
  deriving DecidableEq, Repr

/-- The kind under which an event is announced. -/
def Event.kind? : Event → Option EventKind
  | .state p => EventKind.ofPlayState? p
  | .message _ => some .message

/-- Only `stopped` is not announced. -/
theorem Event.kind?_eq_none_iff {e : Event} : e.kind? = none ↔ e = .state .stopped := by
  cases e with
  | state p => cases p <;> simp [kind?, EventKind.ofPlayState?]
  | message line => simp [kind?]

end SynthControl
