import SynthControl.Worker

/-!
# Phases among reports

The worker reports phases and printed lines over one queue.  What a performance went through can be read
off the phases alone:

* `Event.phase?`, `phases` — the phases among reports, in order;
* `latest` — the phase that the control side ends up in once it has taken note of all of them;
* the phases that begin a performance can be stopped, those that end one close it.
-/

namespace SynthControl

/-- The phase that a report is about; a printed line is about none. -/
def Event.phase? : Event → Option PlayState
  | .state p => some p
  | .message _ => none

/-- The phases among reports, oldest first. -/
def phases (es : List Event) : List PlayState := es.filterMap Event.phase?

@[simp] theorem phases_nil : phases [] = [] := rfl

@[simp] theorem phases_state (p : PlayState) (es : List Event) :
    phases (.state p :: es) = p :: phases es := rfl

@[simp] theorem phases_message (line : String) (es : List Event) :
    phases (.message line :: es) = phases es := rfl

@[simp] theorem phases_append (es fs : List Event) : phases (es ++ fs) = phases es ++ phases fs :=
  List.filterMap_append

@[simp] theorem phases_map_message (lines : List String) : phases (lines.map .message) = [] := by
  induction lines with
  | nil => rfl
  | cons line lines ih =>
    show phases (lines.map .message) = []
    exact ih

@[simp] theorem phases_map_message_comp {α : Type} (f : α → String) (xs : List α) :
    phases (xs.map (Event.message ∘ f)) = [] := by
  rw [← List.map_map]
  exact phases_map_message _

/-- The last of some phases, or the present one if there are none. -/
def latest (current : PlayState) (ps : List PlayState) : PlayState := ps.getLast?.getD current

@[simp] theorem latest_nil (current : PlayState) : latest current [] = current := rfl

@[simp] theorem latest_concat (current p : PlayState) (ps : List PlayState) :
    latest current (ps ++ [p]) = p := by
  simp [latest]

/-- Taking note of the oldest phase does not change where the control side ends up. -/
theorem latest_cons (current p : PlayState) (ps : List PlayState) :
    latest current (p :: ps) = latest p ps := by
  simp [latest, List.getLast?_cons]

/-! ### The two phases of a mode -/

namespace Mode

@[simp] theorem isStoppable_started (m : Mode) : m.started.isStoppable = true := by cases m <;> rfl

@[simp] theorem isStoppable_ended (m : Mode) : m.ended.isStoppable = false := by cases m <;> rfl

@[simp] theorem isEnded_ended (m : Mode) : m.ended.isEnded = true := by cases m <;> rfl

@[simp] theorem isEnded_started (m : Mode) : m.started.isEnded = false := by cases m <;> rfl

end Mode
end SynthControl
