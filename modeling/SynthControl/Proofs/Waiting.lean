import Mathlib.Algebra.Group.Nat.Defs
import Mathlib.Data.List.Basic
import SynthControl.Region

/-!
# How a wait ends

Everybody who waits on a region is woken by the same signal, whichever word was notified, and may be woken for no
reason or late.  So a wait may look at any moments, or at none before its deadline, and words may be written before
and after its check.  What it tells depends on none of that: it tells of a notification exactly when there was one of
its word.

* `Moment`, `Wait.attend` — a wait in progress that looks when it happens to, and what happens between its looks;
* `waitAmong` — a whole wait, with the writes that come between its reading of the count and its check of the word;
  `wait_eq_waitAmong` — `wait` looks after every disturbance;
* `noticeCount_disturbAll`, `isOver_disturbAll_iff` — the count after any disturbances;
* `attend_asleep` — a wait that sleeps until its deadline misses notifications only if they wrap the count;
* `attend_ends` — **a wait in progress ends with what happened before its end**;
* `Ended`, `attend_ended` — what it tells then, as long as the count cannot wrap; `Ended.write_seen` — a write that is
  followed by a notification is seen;
* `waitAmong_tells` — **how a wait ends, whatever happens meanwhile**.
-/

namespace SynthControl.Region

/-! ### Waits that look when they happen to -/

/-- A moment of a wait: something happens while the waiter sleeps, or it is awake and looks at the count. -/
inductive Moment where
  | passes (d : Disturbance)
  | looks
  deriving DecidableEq, Repr

/-- What happened at some moments. -/
def Moment.happenings : List Moment → List Disturbance
  | [] => []
  | passes d :: ms => d :: happenings ms
  | looks :: ms => happenings ms

/-- The region after disturbances, one after another. -/
def disturbAll (r : Region) (ds : List Disturbance) : Region := ds.foldl disturb r

/-- How a wait in progress ends that looks at some moments, and at last at its deadline. -/
def Wait.attend (w : Wait) : List Moment → Region → Outcome × Region
  | [], r => (w.outcome r, r)
  | .passes d :: ms, r => w.attend ms (r.disturb d)
  | .looks :: ms, r => if w.isOver r then (.notified, r) else w.attend ms r

/-- The region after writes.  A write needs no lock. -/
def writeAll (r : Region) (entry : List (Field × Int)) : Region :=
  entry.foldl (fun r fv => r.set fv.1 fv.2) r

/-- Wait on a word that is expected to hold a value.  The count is read first; then come the writes of `entry`,
while the waiter holds the lock and nobody can notify; then the word is checked.  The moments follow that, and
at last the deadline. -/
def waitAmong (r : Region) (f : Field) (expected : Int) (entry : List (Field × Int)) (ms : List Moment) :
    Outcome × Region :=
  let found := r.writeAll entry
  if found.get f = expected then Wait.attend ⟨f, r.noticeCount f⟩ ms found else (.notEqual, found)

/-- The moments of a waiter that looks after every disturbance. -/
def Moment.promptly (ds : List Disturbance) : List Moment := ds.flatMap fun d => [passes d, looks]

theorem Moment.happenings_append (ms ms' : List Moment) :
    happenings (ms ++ ms') = happenings ms ++ happenings ms' := by
  induction ms with
  | nil => rfl
  | cons m ms ih =>
    cases m with
    | passes d => rw [List.cons_append, happenings, ih]; rfl
    | looks => exact ih

theorem Moment.mem_happenings {d : Disturbance} {ms : List Moment} : d ∈ happenings ms ↔ .passes d ∈ ms := by
  induction ms with
  | nil => simp [happenings]
  | cons m ms ih => cases m <;> simp [happenings, ih]

theorem Moment.happenings_promptly (ds : List Disturbance) : happenings (promptly ds) = ds := by
  induction ds with
  | nil => rfl
  | cons d ds ih => exact congrArg (d :: ·) ih

theorem through_eq_attend (w : Wait) (ds : List Disturbance) (r : Region) :
    w.through ds r = w.attend (Moment.promptly ds) r := by
  induction ds generalizing r with
  | nil => rfl
  | cons d ds ih =>
    show _ = if w.isOver (r.disturb d) then (Outcome.notified, r.disturb d)
      else w.attend (Moment.promptly ds) (r.disturb d)
    rw [Wait.through, ih]

/-- A wait that looks after every disturbance is one that looks then. -/
theorem wait_eq_waitAmong (r : Region) (f : Field) (expected : Int) (ds : List Disturbance) :
    r.wait f expected ds = r.waitAmong f expected [] (Moment.promptly ds) := by
  rw [wait, enter?, waitAmong]
  by_cases hget : r.get f = expected
  · rw [if_pos hget]
    exact (through_eq_attend _ ds r).trans (if_pos hget).symm
  · rw [if_neg hget]
    exact (if_neg hget).symm

/-! ### Counting notifications -/

theorem noticeCount_notify_same (r : Region) (f : Field) : (r.notify f).noticeCount f = r.noticeCount f + 1 := by
  simp [noticeCount, notify]

theorem noticeCount_notify_other (r : Region) {f g : Field} (h : g ≠ f) :
    (r.notify f).noticeCount g = r.noticeCount g := by
  have hs : f.slot.val ≠ g.slot.val := fun hv => h (Field.slot_injective (Fin.ext hv)).symm
  simp [noticeCount, notify, hs]

theorem noticeCount_writeAll (r : Region) (entry : List (Field × Int)) (f : Field) :
    (r.writeAll entry).noticeCount f = r.noticeCount f := by
  induction entry generalizing r with
  | nil => rfl
  | cons fv entry ih => exact ih (r.set fv.1 fv.2)

/-- The count of a word goes up with its own notifications only, and wraps. -/
theorem noticeCount_disturbAll (r : Region) (ds : List Disturbance) (f : Field) :
    (r.disturbAll ds).noticeCount f = r.noticeCount f + UInt32.ofNat (ds.count (.notice f)) := by
  induction ds generalizing r with
  | nil => exact (UInt32.add_zero _).symm
  | cons d ds ih =>
    rw [disturbAll, List.foldl_cons, ← disturbAll, ih, List.count_cons]
    cases d with
    | write g v => simp [disturb, noticeCount, set]
    | spurious => simp [disturb]
    | notice g =>
      by_cases hg : g = f
      · subst hg
        rw [disturb, noticeCount_notify_same, if_pos (by simp), UInt32.ofNat_add, UInt32.add_assoc]
        congr 1
        exact UInt32.add_comm _ _
      · rw [disturb, noticeCount_notify_other r (Ne.symm hg), if_neg (by simpa using hg), Nat.add_zero]

/-- A look finds the wait over unless the count has come back to where it was. -/
theorem isOver_disturbAll_iff (r : Region) (ds : List Disturbance) (f : Field) :
    Wait.isOver ⟨f, r.noticeCount f⟩ (r.disturbAll ds) = true ↔ ¬2 ^ 32 ∣ ds.count (.notice f) := by
  have hback : r.noticeCount f + UInt32.ofNat (ds.count (.notice f)) = r.noticeCount f ↔
      2 ^ 32 ∣ ds.count (.notice f) := by
    rw [← UInt32.toNat_inj, UInt32.toNat_add, UInt32.toNat_ofNat']
    have := (r.noticeCount f).toNat_lt
    omega
  rw [Wait.isOver, noticeCount_disturbAll, bne_iff_ne, ne_eq, hback]

/-- As long as the count cannot wrap, a look finds the wait over as soon as the word was notified. -/
theorem isOver_disturbAll_of_lt (r : Region) {ds : List Disturbance} {f : Field}
    (hfew : ds.count (.notice f) < 2 ^ 32) :
    Wait.isOver ⟨f, r.noticeCount f⟩ (r.disturbAll ds) = true ↔ .notice f ∈ ds := by
  rw [isOver_disturbAll_iff, ← List.count_pos_iff]
  refine ⟨fun h => Nat.pos_of_ne_zero fun h0 => h (h0 ▸ Nat.dvd_zero _), fun h hd => ?_⟩
  exact absurd (Nat.le_of_dvd h hd) (by omega)

/-! ### The end of a wait -/

/-- **A wait in progress ends with what happened before its end.**  It ends at its deadline, after all of the moments,
or before that because it was over; what it tells is how it stands then. -/
theorem attend_ends (w : Wait) (ms : List Moment) (r : Region) :
    ∃ past rest, ms = past ++ rest ∧
      (w.attend ms r).2 = r.disturbAll (Moment.happenings past) ∧
      (w.attend ms r).1 = w.outcome (r.disturbAll (Moment.happenings past)) ∧
      ((w.attend ms r).1 ≠ .notified → rest = []) := by
  induction ms generalizing r with
  | nil => exact ⟨[], [], rfl, rfl, rfl, fun _ => rfl⟩
  | cons m ms ih =>
    cases m with
    | passes d =>
      obtain ⟨past, rest, rfl, hleft, houtcome, hrest⟩ := ih (r.disturb d)
      exact ⟨.passes d :: past, rest, rfl, hleft, houtcome, hrest⟩
    | looks =>
      rw [Wait.attend]
      by_cases hover : w.isOver r = true
      · rw [if_pos hover]
        exact ⟨[], .looks :: ms, rfl, rfl, (if_pos hover).symm, fun h => absurd rfl h⟩
      · rw [if_neg hover]
        obtain ⟨past, rest, rfl, hleft, houtcome, hrest⟩ := ih r
        exact ⟨.looks :: past, rest, rfl, hleft, houtcome, hrest⟩

/-- How a wait stands at its deadline. -/
theorem outcome_eq (w : Wait) (r : Region) :
    (w.outcome r = .notified ↔ w.isOver r = true) ∧ (w.outcome r = .timedOut ↔ ¬w.isOver r = true) := by
  rw [Wait.outcome]
  by_cases hover : w.isOver r = true <;> simp [hover]

/-- A wait that sleeps until its deadline tells of a notification unless their number is a multiple of `2 ^ 32`. -/
theorem attend_asleep (r : Region) (f : Field) (ds : List Disturbance) :
    (Wait.attend ⟨f, r.noticeCount f⟩ (ds.map .passes) r).1 = .timedOut ↔ 2 ^ 32 ∣ ds.count (.notice f) := by
  have hasleep : ∀ (w : Wait) (r : Region),
      w.attend (ds.map .passes) r = (w.outcome (r.disturbAll ds), r.disturbAll ds) := by
    intro w
    induction ds with
    | nil => exact fun r => rfl
    | cons d ds ih => exact fun r => ih (r.disturb d)
  rw [hasleep, (outcome_eq _ _).2, isOver_disturbAll_iff, not_not]

/-- A wait in progress on a word ended after some moments and before the rest, and told of what it had seen. -/
structure Ended (r : Region) (f : Field) (past rest : List Moment) (ended : Outcome × Region) : Prop where
  left : ended.2 = r.disturbAll (Moment.happenings past)
  notified : ended.1 = .notified ↔ .notice f ∈ Moment.happenings past
  timedOut : ended.1 = .timedOut ↔ .notice f ∉ Moment.happenings past
  deadline : ended.1 = .timedOut → rest = []

/-- A wait in progress tells of what it has seen, as long as the count cannot wrap. -/
theorem attend_ended (r : Region) {f : Field} {ms : List Moment}
    (hfew : (Moment.happenings ms).count (.notice f) < 2 ^ 32) :
    ∃ past rest, ms = past ++ rest ∧ Ended r f past rest (Wait.attend ⟨f, r.noticeCount f⟩ ms r) := by
  obtain ⟨past, rest, hms, hleft, houtcome, hrest⟩ := attend_ends ⟨f, r.noticeCount f⟩ ms r
  have hpast : (Moment.happenings past).count (.notice f) < 2 ^ 32 := by
    rw [hms, Moment.happenings_append, List.count_append] at hfew
    omega
  have hover := isOver_disturbAll_of_lt r hpast
  refine ⟨past, rest, hms, hleft, ?_, ?_, fun h => hrest ?_⟩
  · rw [houtcome, (outcome_eq _ _).1, hover]
  · rw [houtcome, (outcome_eq _ _).2, hover]
  · rw [h]
    decide

namespace Ended

variable {r : Region} {f : Field} {past rest : List Moment} {ended : Outcome × Region}

/-- What a wait tells does not depend on when it looks. -/
theorem tells (h : Ended r f past rest ended) :
    ended.1 = if .notice f ∈ Moment.happenings (past ++ rest) then .notified else .timedOut := by
  by_cases hseen : .notice f ∈ Moment.happenings past
  · rw [h.notified.mpr hseen, if_pos]
    rw [Moment.happenings_append]
    exact List.mem_append_left _ hseen
  · -- it has slept through everything
    have htimedOut := h.timedOut.mpr hseen
    rw [htimedOut, h.deadline htimedOut, List.append_nil, if_neg hseen]

/-- A wait that was notified does not end before the first notification. -/
theorem first_seen (h : Ended r f past rest ended) {before after : List Moment}
    (hsplit : past ++ rest = before ++ .passes (.notice f) :: after)
    (hfirst : .notice f ∉ Moment.happenings before) : before ++ [.passes (.notice f)] <+: past := by
  have hbefore : before ++ [.passes (.notice f)] <+: past ++ rest := by
    rw [hsplit]
    exact ⟨after, by simp⟩
  rcases List.prefix_or_prefix_of_prefix hbefore (List.prefix_append past rest) with hprefix | hprefix
  · exact hprefix
  · rcases List.prefix_concat_iff.mp hprefix with hpast | ⟨u, hu⟩
    · exact hpast ▸ List.prefix_rfl
    · -- it would have ended at its deadline, before a moment that was still to come
      have hunseen : .notice f ∉ Moment.happenings past := by
        rw [← hu, Moment.happenings_append] at hfirst
        exact fun hseen => hfirst (List.mem_append_left _ hseen)
      rw [h.deadline (h.timedOut.mpr hunseen), List.append_nil] at hbefore
      exact hbefore

/-- A wait is notified exactly if the word was, whenever it looks, and comes to its deadline exactly if it was not. -/
theorem tells_iff (h : Ended r f past rest ended) :
    (ended.1 = .notified ↔ .notice f ∈ Moment.happenings (past ++ rest)) ∧
      (ended.1 = .timedOut ↔ .notice f ∉ Moment.happenings (past ++ rest)) := by
  rw [h.tells]
  by_cases hmem : .notice f ∈ Moment.happenings (past ++ rest) <;> simp [hmem]

/-- A write that is followed by a notification ends the wait, and not before it can be seen. -/
theorem write_seen (h : Ended r f past rest ended) {before between after : List Moment} {v : Int}
    (hat : past ++ rest = before ++ .passes (.write f v) :: (between ++ .passes (.notice f) :: after)) :
    ended.1 = .notified ∧
      (.notice f ∉ Moment.happenings (before ++ between) →
        before ++ .passes (.write f v) :: (between ++ [.passes (.notice f)]) <+: past) := by
  refine ⟨h.tells_iff.1.mpr (Moment.mem_happenings.mpr (by simp [hat])), fun hfirst => ?_⟩
  have hbefore : .notice f ∉ Moment.happenings (before ++ .passes (.write f v) :: between) := by
    rw [Moment.mem_happenings] at hfirst ⊢
    simpa using hfirst
  have hsplit : past ++ rest = (before ++ .passes (.write f v) :: between) ++ .passes (.notice f) :: after := by
    rw [hat, List.append_assoc, List.cons_append]
  simpa using h.first_seen hsplit hbefore

end Ended

/-- What a whole wait tells. -/
theorem waitAmong_fst (r : Region) {f : Field} (expected : Int) (entry : List (Field × Int)) {ms : List Moment}
    (hfew : (Moment.happenings ms).count (.notice f) < 2 ^ 32) :
    (r.waitAmong f expected entry ms).1 =
      if (r.writeAll entry).get f ≠ expected then .notEqual
      else if .notice f ∈ Moment.happenings ms then .notified else .timedOut := by
  rw [waitAmong]
  by_cases hget : (r.writeAll entry).get f = expected
  · obtain ⟨past, rest, hms, hended⟩ := attend_ended (r.writeAll entry) hfew
    rw [if_neg (not_not.mpr hget), hms, ← hended.tells, ← hms, noticeCount_writeAll]
    exact congrArg Prod.fst (if_pos hget)
  · rw [if_pos hget]
    exact congrArg Prod.fst (if_neg hget)

/-- **How a wait ends, whatever happens meanwhile.**  The word is compared once, after the writes of `entry`.  If it
held the expected value, the wait tells of a notification exactly when the word was notified before the end of the
wait, and of its deadline exactly when it was not; other words and the moments of the looks do not matter.  A write of
the word that is followed by a notification is never missed. -/
theorem waitAmong_tells (r : Region) (f : Field) (expected : Int) (entry : List (Field × Int)) (ms : List Moment)
    (hfew : (Moment.happenings ms).count (.notice f) < 2 ^ 32) :
    let found := r.writeAll entry
    let ended := r.waitAmong f expected entry ms
    ended.1 = (found.wait f expected (Moment.happenings ms)).1 ∧
    (ended.1 = .notEqual ↔ found.get f ≠ expected) ∧
    (found.get f ≠ expected → ended.2 = found) ∧
    (found.get f = expected →
      (ended.1 = .notified ↔ .notice f ∈ Moment.happenings ms) ∧
      (ended.1 = .timedOut ↔ .notice f ∉ Moment.happenings ms) ∧
      ∃ past rest, ms = past ++ rest ∧ Ended found f past rest ended ∧
        ∀ before v between after,
          ms = before ++ .passes (.write f v) :: (between ++ .passes (.notice f) :: after) →
            ended.1 = .notified ∧
              (.notice f ∉ Moment.happenings (before ++ between) →
                before ++ .passes (.write f v) :: (between ++ [.passes (.notice f)]) <+: past)) := by
  intro found ended
  have htells : ended.1 = _ := waitAmong_fst r expected entry hfew
  refine ⟨?_, ?_, fun hget => congrArg Prod.snd (if_neg hget), fun hget => ?_⟩
  · rw [wait_eq_waitAmong, waitAmong_fst _ expected [] (by rwa [Moment.happenings_promptly]),
      Moment.happenings_promptly]
    exact htells
  · rw [htells]
    split
    · next hget => exact ⟨fun _ => hget, fun _ => rfl⟩
    · next hget =>
      refine ⟨fun h => ?_, fun h => absurd h hget⟩
      split at h <;> cases h
  · obtain ⟨past, rest, hms, hended⟩ := attend_ended found hfew
    have hattend : Wait.attend ⟨f, found.noticeCount f⟩ ms found = ended := by
      rw [noticeCount_writeAll]
      exact (if_pos hget).symm
    rw [hattend] at hended
    obtain ⟨hnotified, htimedOut⟩ := hended.tells_iff
    rw [← hms] at hnotified htimedOut
    refine ⟨hnotified, htimedOut, past, rest, hms, hended, fun before v between after hat => ?_⟩
    exact hended.write_seen (hms.symm.trans hat)

/-- A waiter on a cycle boundary is woken for another word and for no reason, and sleeps on; the boundary that is then
written and notified while it is not looking ends its wait. -/
theorem waitAmong_tells_boundary :
    let ms : List Moment := [.passes (.notice .paused), .looks, .passes .spurious, .looks,
      .passes (.write .cycle 1), .passes (.notice .cycle)]
    (Moment.happenings ms).count (.notice .cycle) < 2 ^ 32 ∧
      (fresh.writeAll [(.paused, 1)]).get .cycle = 0 ∧
      (fresh.waitAmong .cycle 0 [(.paused, 1)] ms).1 = .notified := by
  intro ms
  have hfew : (Moment.happenings ms).count (.notice .cycle) < 2 ^ 32 := by decide
  have hfound : (fresh.writeAll [(.paused, 1)]).get .cycle = 0 := by decide
  exact ⟨hfew, hfound,
    ((waitAmong_tells fresh .cycle 0 [(.paused, 1)] ms hfew).2.2.2 hfound).1.mpr (by decide)⟩

end SynthControl.Region
