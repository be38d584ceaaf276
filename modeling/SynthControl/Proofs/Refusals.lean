import SynthControl.Proofs.Effects

/-!
# What a refused operation leaves behind

An operation looks at its arguments before it changes anything, so that one that is refused leaves the engine as it
was.  A document is the exception: its options are applied one after another, and those in front of one that is
refused stay applied.

* `Sine.Stops`, `Sine.setOptions_refused_iff` — where options are given up;
* `Sine.Retuned` — what options can change of an engine;
* `Sine.LooksFirst`, `Sine.carryOut_looksFirst` — **an operation looks at everything before it changes anything**;
* `Sine.compile_refused` — a document is refused for one of its options only;
* `Sine.refused_leaves` — **a refused operation leaves the engine as it was**, but for the options of a document.
-/

namespace SynthControl.Sine

/-! ### Options up to a refused one -/

/-- Of some options `o` is the first that is refused, for a reason. -/
def Stops (s : Sine) (options : List String) (o : String) (reason : OptionError) : Prop :=
  ∃ accepted rest, options = accepted ++ o :: rest ∧ (∀ a ∈ accepted, ∃ c, s.readOption a = .ok c) ∧
    s.readOption o = .error reason

section

variable {s s' : Sine} {options : List String} {o : String} {reason : OptionError} {changes : List Change}

theorem stops_apply {c : Change} : (s.apply c).Stops options o reason ↔ s.Stops options o reason := by
  simp only [Stops, readOption_apply]

/-- An option that is accepted is not the one at which options are given up. -/
theorem stops_cons_of_ok {first : String} {c : Change} (h : s.readOption first = .ok c) :
    s.Stops (first :: options) o reason ↔ s.Stops options o reason := by
  constructor
  · rintro ⟨_ | ⟨a, accepted⟩, rest, hsplit, haccepted, hrefused⟩
    · cases hsplit
      rw [h] at hrefused
      cases hrefused
    · cases hsplit
      exact ⟨accepted, rest, rfl, (List.forall_mem_cons.1 haccepted).2, hrefused⟩
  · rintro ⟨accepted, rest, rfl, haccepted, hrefused⟩
    exact ⟨first :: accepted, rest, rfl, List.forall_mem_cons.2 ⟨⟨c, h⟩, haccepted⟩, hrefused⟩

theorem stops_cons_of_error {first : String} {e : OptionError} (h : s.readOption first = .error e) :
    s.Stops (first :: options) o reason ↔ first = o ∧ e = reason := by
  constructor
  · rintro ⟨_ | ⟨a, accepted⟩, rest, hsplit, haccepted, hrefused⟩
    · cases hsplit
      rw [h] at hrefused
      cases hrefused
      exact ⟨rfl, rfl⟩
    · cases hsplit
      obtain ⟨c, hc⟩ := haccepted first List.mem_cons_self
      rw [h] at hc
      cases hc
  · rintro ⟨rfl, rfl⟩
    exact ⟨[], options, rfl, nofun, h⟩

/-- Options are refused for the first of them that is. -/
theorem setOptions_refused_iff : (s.setOptions options).2 = some (o, reason) ↔ s.Stops options o reason := by
  induction options generalizing s with
  | nil => exact iff_of_false nofun (by rintro ⟨accepted, rest, hsplit, -⟩; simp at hsplit)
  | cons first options ih =>
    rw [setOptions, setOption?]
    cases hread : s.readOption first with
    | ok c => exact ih.trans (stops_apply.trans (stops_cons_of_ok hread).symm)
    | error e =>
      rw [stops_cons_of_error hread]
      show some (first, e) = some (o, reason) ↔ _
      simp only [Option.some.injEq, Prod.mk.injEq]

/-! ### What options change -/

/-- An engine in which nothing but what options are about is different. -/
def Retuned (s s' : Sine) : Prop :=
  ∃ settings output wantsInput wantsMidi duration,
    s' = { s with settings, output, wantsInput, wantsMidi, duration }

theorem apply_retuned (s : Sine) (c : Change) : s.Retuned (s.apply c) := by
  cases c <;> exact ⟨_, _, _, _, _, rfl⟩

theorem foldl_retuned (s : Sine) (changes : List Change) : s.Retuned (changes.foldl apply s) := by
  induction changes generalizing s with
  | nil => exact ⟨_, _, _, _, _, rfl⟩
  | cons c changes ih =>
    obtain ⟨_, _, _, _, _, hfirst⟩ := apply_retuned s c
    obtain ⟨settings, output, wantsInput, wantsMidi, duration, hrest⟩ := ih (s.apply c)
    rw [hfirst] at hrest
    exact ⟨settings, output, wantsInput, wantsMidi, duration, by rw [List.foldl_cons, hfirst, hrest]⟩

/-- Nothing is different once a change is made a second time. -/
theorem apply_apply (s : Sine) (c : Change) : (s.apply c).apply c = s.apply c := by
  cases c with
  | quantity what n => cases what <;> rfl
  | audioInput => simp [apply]
  | inputs n | realtime | output path | midi | duration x => rfl

/-- Changes that are none for the engine as it is leave it so. -/
theorem foldl_eq_self (h : ∀ c ∈ changes, s.apply c = s) : changes.foldl apply s = s := by
  induction changes with
  | nil => rfl
  | cons c changes ih =>
    rw [List.forall_mem_cons] at h
    rw [List.foldl_cons, h.1]
    exact ih h.2

/-- The last of some changes is visible after them. -/
theorem foldl_ne_self {c : Change} (h : s.apply c ≠ s) : (changes ++ [c]).foldl apply s ≠ s := by
  intro heq
  rw [List.foldl_append, List.foldl_cons, List.foldl_nil] at heq
  refine h ?_
  calc s.apply c = ((changes.foldl apply s).apply c).apply c := by rw [heq]
    _ = s := by rw [apply_apply, heq]

/-- During a performance options ask for nothing but another duration. -/
theorem taken_durations (hp : s.performing = true) : ∀ c ∈ s.taken options, ∃ x, c = .duration x := by
  induction options with
  | nil => exact List.forall_mem_nil _
  | cons o os ih =>
    rw [taken]
    split
    · next c hread => exact List.forall_mem_cons.2 ⟨readOption_duration hp hread, ih⟩
    · exact List.forall_mem_nil _

theorem foldl_durations (h : ∀ c ∈ changes, ∃ x, c = .duration x) :
    ∃ duration, changes.foldl apply s = { s with duration } := by
  induction changes generalizing s with
  | nil => exact ⟨_, rfl⟩
  | cons c changes ih =>
    rw [List.forall_mem_cons] at h
    obtain ⟨x, rfl⟩ := h.1
    obtain ⟨duration, hd⟩ := ih (s := s.apply (.duration x)) h.2
    exact ⟨duration, hd⟩

end

/-! ### Refused operations -/

/-- An action that is refused from an engine has changed nothing of it before. -/
def LooksFirst {α : Type} (s : Sine) (x : Action α) : Prop :=
  ∀ e, (x.run.run s).1 = .error e → (x.run.run s).2 = s

section

variable {α β : Type} {s : Sine} {e : EngineError}

/-- An action may look at something that can be refused before it goes on. -/
theorem LooksFirst.look {x : Except EngineError α} {f : α → Action β} (h : ∀ a, LooksFirst s (f a)) :
    LooksFirst s (liftM x >>= f) := by
  cases x with
  | error e => exact fun _ _ => rfl
  | ok a => exact h a

/-- Once it cannot be refused any more it may change anything. -/
theorem LooksFirst.sure {x : Action α} {a : α} (h : (x.run.run s).1 = .ok a) : LooksFirst s x := by
  intro e he
  rw [h] at he
  cases he

/-- **Every operation looks first**, but for the compilation of a document. -/
theorem carryOut_looksFirst {args : List Value} {op : Operation}
    (hop : op = .compileCsd → ∀ document, textArg args 0 ≠ .ok document) : LooksFirst s (carryOut args op) := by
  cases op with
  | compileCsd =>
    rw [carryOut]
    cases hdocument : textArg args 0 with
    | ok document => exact absurd hdocument (hop rfl document)
    | error e => exact fun _ _ => rfl
  | compileOrc =>
    refine .look fun code => ?_
    split <;> exact .sure rfl
  | tableGet =>
    -- the table is that of the engine before the operation, which nothing has changed yet
    exact .look fun _ => .look fun number => .look (x := s.table number) fun _ => .look fun _ => .sure rfl
  | tableSet =>
    exact .look fun number => .look fun _ => .look fun _ => .look (x := s.table number) fun _ => .look fun _ =>
      .sure rfl
  | readFile => exact .look fun path => .look (x := s.file path) fun _ => .sure rfl
  | setControlChannel | setStringChannel | writeFile => exact .look fun _ => .look fun _ => .sure rfl
  | evalCode | readScore | inputMessage | setOption | getControlChannel | getStringChannel | setScorePending
    | setScoreOffset | tableLength | removeFiles => exact .look fun _ => .sure rfl
  | _ => exact .sure rfl

/-- A call that is refused is an operation that is. -/
theorem call_refused {op : Operation} {args : List Value} (h : (s.call op args).1 = .failed e) :
    (carryOut args op).run.run s = (.error e, (s.call op args).2) := by
  rw [call] at h ⊢
  split at h
  · cases h
  · next heq =>
    cases h
    exact heq

theorem LooksFirst.call {op : Operation} {args : List Value} (hl : LooksFirst s (carryOut args op))
    (h : (s.call op args).1 = .failed e) : (s.call op args).2 = s := by
  have hrun := call_refused h
  rw [LooksFirst, hrun] at hl
  exact hl e rfl

/-- A document is refused for one of its options, and for nothing else. -/
theorem compile_refused {document : String} (h : (s.compile document.toList).2 = some e) :
    ∃ o reason, e = .documentOption o reason ∧ s.Stops (optionsOf document) o reason ∧
      (s.compile document.toList).1 = (s.taken (optionsOf document)).foldl apply s := by
  rw [← setOptions_fst]
  rw [compile] at h ⊢
  dsimp only at h ⊢
  rw [← optionsOf] at h ⊢
  split at h
  · next kept o reason heq =>
    cases h
    rw [heq]
    exact ⟨o, reason, rfl, setOptions_refused_iff.1 (congrArg Prod.snd heq), rfl⟩
  · split at h <;> cases h

theorem compileDocument_refused {document : String} {s' : Sine}
    (h : (compileDocument document).run.run s = (.error e, s')) : s.compile document.toList = (s', some e) := by
  rw [ExceptT.run, StateT.run, compileDocument] at h
  split at h
  · cases h
  · next heq =>
    cases h
    exact heq

/-- **A refused operation leaves the engine as it was**, but for the options of a document.  For every engine, every
operation and all arguments, of any number and of any kind:

* an operation that compiles no document changes nothing at all when it is refused;
* neither does the compilation of something that is no text;
* a document is refused for the first of its options that is, and what the options in front of it ask for, stays:
  the settings, the output and what is requested, or the duration alone during a performance, and nothing else.  The
  engine is as it was if none of them asks for anything new, and it is not if the last of them does. -/
theorem refused_leaves {op : Operation} {args : List Value} (h : (s.call op args).1 = .failed e) :
    (op ≠ .compileCsd → (s.call op args).2 = s) ∧
    ((∀ document, textArg args 0 ≠ .ok document) → (s.call op args).2 = s) ∧
    ∀ document, op = .compileCsd → textArg args 0 = .ok document →
      let changes := s.taken (optionsOf document)
      (∃ o reason, e = .documentOption o reason ∧ s.Stops (optionsOf document) o reason) ∧
        (s.call op args).2 = changes.foldl apply s ∧ s.Retuned (s.call op args).2 ∧
        (s.performing = true → ∃ duration, (s.call op args).2 = { s with duration }) ∧
        ((∀ c ∈ changes, s.apply c = s) → (s.call op args).2 = s) ∧
        ∀ before c, changes = before ++ [c] → s.apply c ≠ s → (s.call op args).2 ≠ s := by
  refine ⟨fun hop => ?_, fun hnone => ?_, ?_⟩
  · exact (carryOut_looksFirst fun hdocument => absurd hdocument hop).call h
  · exact (carryOut_looksFirst fun _ => hnone).call h
  · rintro document rfl hdocument changes
    have hrun := call_refused h
    rw [carryOut, hdocument] at hrun
    have hcompile := compileDocument_refused hrun
    obtain ⟨o, reason, he, hstops, hkept⟩ := compile_refused (congrArg Prod.snd hcompile)
    rw [hcompile] at hkept
    rw [show (s.call .compileCsd args).2 = changes.foldl apply s from hkept]
    refine ⟨⟨o, reason, he, hstops⟩, rfl, foldl_retuned s changes, fun hp => ?_, foldl_eq_self, ?_⟩
    · exact foldl_durations (taken_durations hp)
    · intro before c hsplit hc
      show changes.foldl apply s ≠ s
      rw [hsplit]
      exact foldl_ne_self hc

/-- A document whose first option is fine and whose second is not leaves another sample rate behind. -/
theorem refused_leaves_rate :
    let refused := (fresh {}).call .compileCsd [.str "<CsOptions>-r48000 --bogus</CsOptions>"]
    refused.1 = .failed (.documentOption "--bogus" .unrecognised) ∧
      refused.2 = (fresh {}).apply (.quantity .sampleRate 48000) ∧ refused.2 ≠ fresh {} := by
  intro refused
  have hfailed : refused.1 = .failed (.documentOption "--bogus" .unrecognised) := rfl
  obtain ⟨-, hleft, -, -, -, hchanged⟩ := (refused_leaves hfailed).2.2 _ rfl rfl
  refine ⟨hfailed, hleft, hchanged [] (.quantity .sampleRate 48000) rfl fun h => ?_⟩
  have hrate : (48000 : Int) = 44100 := congrArg (fun s => s.settings.sampleRate) h
  exact absurd hrate (by decide)

end

end SynthControl.Sine
