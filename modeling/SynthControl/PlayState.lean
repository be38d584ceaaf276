/-!
# Play states

The phases of a performance.  A realtime performance is driven by the render loop and can be paused;
an offline render runs on its own.

* `PlayState` — the seven phases;
* `PlayState.name`, `PlayState.ofName?` — their public names;
* `isStoppable`, `isActive`, `isEnded` — the phases in which a stop is possible, in which the engine is
  running unpaused, and which close a performance.

Main statement: `ofName?_eq_some_iff` (reading accepts exactly the public names).
-/

namespace SynthControl

/-- The phase of a performance. -/
inductive PlayState where
  /-- Nothing has been performed since the last reset. -/
  | stopped
  | realtimeStarted
  /-- The realtime performance is paused. -/
  | realtimePaused
  /-- The realtime performance goes on after a pause. -/
  | realtimeResumed
  | realtimeEnded
  | renderStarted
  | renderEnded
  deriving DecidableEq, Repr

namespace PlayState

/-- Every phase, in the order of a performance. -/
def all : List PlayState :=
  [stopped, realtimeStarted, realtimePaused, realtimeResumed, realtimeEnded, renderStarted,
    renderEnded]

/-- The public name of a phase. -/
def name : PlayState → String
  | stopped => "stopped"
  | realtimeStarted => "realtimePerformanceStarted"
  | realtimePaused => "realtimePerformancePaused"
  | realtimeResumed => "realtimePerformanceResumed"
  | realtimeEnded => "realtimePerformanceEnded"
  | renderStarted => "renderStarted"
  | renderEnded => "renderEnded"

/-- The name of a phase as a programmer writes it. -/
def label : PlayState → String
  | stopped => "Stopped"
  | realtimeStarted => "RealtimePerformanceStarted"
  | realtimePaused => "RealtimePerformancePaused"
  | realtimeResumed => "RealtimePerformanceResumed"
  | realtimeEnded => "RealtimePerformanceEnded"
  | renderStarted => "RenderStarted"
  | renderEnded => "RenderEnded"

/-- The phase with a public name. -/
def ofName? (s : String) : Option PlayState := all.find? fun p => p.name == s

/-- What is said about a text that is not the name of a phase. -/
def unknown (s : String) : String := "unknown play state: " ++ s

theorem mem_all (p : PlayState) : p ∈ all := by cases p <;> decide

theorem name_injective {p q : PlayState} (h : p.name = q.name) : p = q := by
  cases p <;> cases q <;> first | rfl | exact absurd h (by decide)

/-- Reading accepts exactly the public names. -/
theorem ofName?_eq_some_iff {s : String} {p : PlayState} : ofName? s = some p ↔ p.name = s := by
  constructor
  · intro h
    simpa using List.find?_some h
  · rintro rfl
    cases p <;> decide

/-- Phases from which a stop is permitted. -/
def isStoppable : PlayState → Bool
  | realtimeStarted | realtimePaused | realtimeResumed | renderStarted => true
  | _ => false

/-- Phases in which the engine has just begun to run. -/
def isActive : PlayState → Bool
  | realtimeStarted | renderStarted => true
  | _ => false

/-- Phases that close a performance. -/
def isEnded : PlayState → Bool
  | realtimeEnded | renderEnded => true
  | _ => false

/-- An ended phase cannot be stopped. -/
theorem not_isStoppable_of_isEnded {p : PlayState} (h : p.isEnded = true) :
    p.isStoppable = false := by
  cases p <;> simp_all [isEnded, isStoppable]

end PlayState
end SynthControl
