import SynthControl.Sine.Call

/-!
# What an operation does to an engine

An operation applies the options that it brings, up to the first that is refused.  Whatever else it does, the blocks
of a performance do not depend on.

* `Sine.Keeps` — an engine keeps its settings, its mode and its blocks;
* `Sine.Aside`, `Sine.Beside` — and also its setup and its output, and whether it asks for audio input;
* `Sine.optionsOf`, `Sine.optionsIn` — the options of a document, and those that a call brings;
* `Sine.taken`, `Sine.setOptions_fst` — what options ask for, **up to the first that is refused**;
* `Sine.readOption_duration` — during a performance only options for the duration are accepted;
* `Sine.Leaves` — what holds of an engine after an action, refused or not;
* `Sine.carryOut_beside`, `Sine.call_beside`, `Sine.call_aside` — **an operation applies its options, and does other
  things beside them**;
* `Sine.Spares`, `Sine.call_spares` — **it leaves alone what is rendered, and the files unless it is to change them**.
-/

namespace SynthControl.Sine

/-- An engine keeps its settings, its mode and its blocks. -/
structure Keeps (s s' : Sine) : Prop where
  performing_eq : s'.performing = s.performing
  mode_eq : s'.mode = s.mode
  settings_eq : s'.settings = s.settings
  block_eq : s'.block = s.block
  input_eq : s'.input = s.input

/-- Nothing is changed that the blocks of a performance, this one or a later one, depend on but by options. -/
structure Aside (s s' : Sine) : Prop where
  keeps : s.Keeps s'
  origin_eq : s'.origin = s.origin
  output_eq : s'.output = s.output

/-- Nor is it changed whether audio input is asked for. -/
structure Beside (s s' : Sine) : Prop where
  aside : s.Aside s'
  wantsInput_eq : s'.wantsInput = s.wantsInput

section

variable {s s' s'' : Sine}

theorem Keeps.refl (s : Sine) : s.Keeps s := ⟨rfl, rfl, rfl, rfl, rfl⟩

theorem Keeps.trans (h : s.Keeps s') (h' : s'.Keeps s'') : s.Keeps s'' :=
  ⟨h'.performing_eq.trans h.performing_eq, h'.mode_eq.trans h.mode_eq, h'.settings_eq.trans h.settings_eq,
    h'.block_eq.trans h.block_eq, h'.input_eq.trans h.input_eq⟩

theorem Aside.refl (s : Sine) : s.Aside s := ⟨.refl s, rfl, rfl⟩

theorem Aside.trans (h : s.Aside s') (h' : s'.Aside s'') : s.Aside s'' :=
  ⟨h.keeps.trans h'.keeps, h'.origin_eq.trans h.origin_eq, h'.output_eq.trans h.output_eq⟩

theorem Beside.refl (s : Sine) : s.Beside s := ⟨.refl s, rfl⟩

theorem Beside.trans (h : s.Beside s') (h' : s'.Beside s'') : s.Beside s'' :=
  ⟨h.aside.trans h'.aside, h'.wantsInput_eq.trans h.wantsInput_eq⟩

end

/-! ### Options -/

/-- The options of a document, as they stand between blanks. -/
def optionsOf (document : String) : List String :=
  (((section? document.toList "CsOptions".toList).map Text.words).getD []).map String.ofList

/-- The options that a call brings. -/
def optionsIn (args : List Value) : Operation → List String
  | .setOption =>
    match textArg args 0 with
    | .ok option => [option]
    | .error _ => []
  | .compileCsd =>
    match textArg args 0 with
    | .ok document => optionsOf document
    | .error _ => []
  | _ => []

/-- What options ask for, up to the first that is refused. -/
def taken (s : Sine) : List String → List Change
  | [] => []
  | o :: os =>
    match s.readOption o with
    | .ok c => c :: s.taken os
    | .error _ => []

/-- What an option asks for does not depend on the options in front of it. -/
theorem readOption_apply (s : Sine) (c : Change) (o : String) : (s.apply c).readOption o = s.readOption o := by
  cases c <;> rfl

theorem taken_apply (s : Sine) (c : Change) (options : List String) : (s.apply c).taken options = s.taken options := by
  induction options with
  | nil => rfl
  | cons o os ih => simp only [taken, readOption_apply, ih]

/-- **Options are applied up to the first that is refused**, and what was applied stays. -/
theorem setOptions_fst (s : Sine) (options : List String) :
    (s.setOptions options).1 = (s.taken options).foldl apply s := by
  induction options generalizing s with
  | nil => rfl
  | cons o os ih =>
    rw [setOptions, taken, setOption?]
    cases s.readOption o with
    | error e => rfl
    | ok c => exact (ih (s.apply c)).trans (by rw [taken_apply, List.foldl_cons])

/-- An option that begins as one for the duration is one for the duration. -/
theorem read_duration (v : List Char) : Change.read (durationLead ++ v) = readDuration v := by
  rfl

/-- While a performance goes on only options for the duration are accepted. -/
theorem readOption_duration {s : Sine} (hp : s.performing = true) {option : String} {c : Change}
    (h : s.readOption option = .ok c) : ∃ x, c = .duration x := by
  rw [readOption, hp, Bool.true_and] at h
  split at h
  · cases h
  · next hlead =>
    -- the option begins as one for the duration
    obtain ⟨v, hv⟩ : durationLead <+: Text.trim option.toList := by simpa using hlead
    rw [← hv, read_duration, readDuration] at h
    split at h
    · cases h
    · split at h <;> cases h
      exact ⟨_, rfl⟩

/-! ### Operations -/

section

variable {α β : Type} {P : Sine → Prop} {s : Sine}

/-- From an engine an action leads to one that satisfies `P`, whether it is refused or not. -/
def Leaves (P : Sine → Prop) (s : Sine) (x : Action α) : Prop := P (x.run.run s).2

/-- What is only looked at changes nothing. -/
theorem Leaves.look {x : Except EngineError α} {f : α → Action β} (h : ∀ e, x = .error e → P s)
    (hf : ∀ a, x = .ok a → Leaves P s (f a)) : Leaves P s (liftM x >>= f) := by
  cases x with
  | error e => exact h e rfl
  | ok a => exact hf a rfl

theorem Leaves.call {op : Operation} {args : List Value} (h : Leaves P s (carryOut args op)) :
    P (s.call op args).2 := by
  rw [Leaves] at h
  rw [Sine.call]
  split
  all_goals
    next heq =>
    rw [heq] at h
    exact h

end

section

variable (s : Sine) (args : List Value)

theorem readScore_beside (score : List Char) : s.Beside (s.readScore score) :=
  ⟨⟨⟨rfl, rfl, rfl, rfl, rfl⟩, rfl, rfl⟩, rfl⟩

/-- A document applies its options; its orchestra and its score come beside them. -/
theorem compile_beside (document : String) :
    (s.setOptions (optionsOf document)).1.Beside (s.compile document.toList).1 := by
  rw [compile]
  dsimp only
  rw [← optionsOf]
  split
  · next s' o e heq =>
    rw [heq]
    exact .refl s'
  · next s' heq =>
    rw [heq]
    cases section? document.toList "CsInstruments".toList with
    | none =>
      dsimp only
      split
      · exact readScore_beside s' _
      · exact .refl s'
    | some orchestra =>
      dsimp only
      have horchestra : s'.Beside { s' with orchestra := s'.orchestra ++ [String.ofList orchestra] } :=
        ⟨⟨⟨rfl, rfl, rfl, rfl, rfl⟩, rfl, rfl⟩, rfl⟩
      split
      · exact horchestra.trans (readScore_beside _ _)
      · exact horchestra

theorem callSetOption_beside (option : String) : (s.setOptions [option]).1.Beside (s.callSetOption option).2 := by
  rw [setOptions, callSetOption]
  cases s.setOption? option with
  | ok s' => exact .refl s'
  | error e => exact ⟨⟨⟨rfl, rfl, rfl, rfl, rfl⟩, rfl, rfl⟩, rfl⟩

/-- A document leaves what compiling it leaves, refused or not. -/
theorem compileDocument_snd (document : String) :
    ((compileDocument document).run.run s).2 = (s.compile document.toList).1 := by
  rw [ExceptT.run, StateT.run, compileDocument]
  rcases s.compile document.toList with ⟨s', _ | e⟩ <;> rfl

/-- **An operation applies its options, and does other things beside them**, whether it is refused or not. -/
theorem carryOut_beside (op : Operation) :
    Leaves (s.setOptions (optionsIn args op)).1.Beside s (carryOut args op) := by
  cases op with
  | compileCsd =>
    refine .look (fun e he => ?_) fun document hdocument => ?_
    · rw [optionsIn, he]
      exact .refl s
    · rw [optionsIn, hdocument, Leaves, compileDocument_snd]
      exact compile_beside s document
  | setOption =>
    refine .look (fun e he => ?_) fun option hoption => ?_
    · rw [optionsIn, he]
      exact .refl s
    · rw [optionsIn, hoption]
      exact callSetOption_beside s option
  | compileOrc =>
    refine .look (fun _ _ => .refl s) fun code _ => ?_
    split
    · exact .refl s
    · exact ⟨⟨⟨rfl, rfl, rfl, rfl, rfl⟩, rfl, rfl⟩, rfl⟩
  | readScore | inputMessage => exact .look (fun _ _ => .refl s) fun score _ => readScore_beside s score.toList
  | tableGet =>
    exact .look (fun _ _ => .refl s) fun _ _ => .look (fun _ _ => .refl s) fun _ _ =>
      .look (x := s.table _) (fun _ _ => .refl s) fun _ _ => .look (fun _ _ => .refl s) fun _ _ => .refl s
  | tableSet =>
    exact .look (fun _ _ => .refl s) fun _ _ => .look (fun _ _ => .refl s) fun _ _ =>
      .look (fun _ _ => .refl s) fun _ _ => .look (x := s.table _) (fun _ _ => .refl s) fun _ _ =>
        .look (fun _ _ => .refl s) fun _ _ => ⟨⟨⟨rfl, rfl, rfl, rfl, rfl⟩, rfl, rfl⟩, rfl⟩
  | readFile =>
    exact .look (fun _ _ => .refl s) fun path _ => .look (x := s.file path) (fun _ _ => .refl s) fun _ _ => .refl s
  | setControlChannel | setStringChannel | writeFile =>
    exact .look (fun _ _ => .refl s) fun _ _ => .look (fun _ _ => .refl s) fun _ _ =>
      ⟨⟨⟨rfl, rfl, rfl, rfl, rfl⟩, rfl, rfl⟩, rfl⟩
  | setScorePending | setScoreOffset | removeFiles =>
    exact .look (fun _ _ => .refl s) fun _ _ => ⟨⟨⟨rfl, rfl, rfl, rfl, rfl⟩, rfl, rfl⟩, rfl⟩
  | evalCode | getControlChannel | getStringChannel | tableLength =>
    exact .look (fun _ _ => .refl s) fun _ _ => .refl s
  | rewindScore => exact ⟨⟨⟨rfl, rfl, rfl, rfl, rfl⟩, rfl, rfl⟩, rfl⟩
  | _ => exact .refl s

/-- **A call applies the options of its operation, and does other things beside them.** -/
theorem call_beside (op : Operation) : (s.setOptions (optionsIn args op)).1.Beside (s.call op args).2 :=
  (carryOut_beside s args op).call

theorem call_aside (op : Operation) : (s.setOptions (optionsIn args op)).1.Aside (s.call op args).2 :=
  (call_beside s args op).aside

end

/-! ### What is rendered, and the files -/

/-- What is rendered is left alone, and so are the files. -/
structure Spares (s s' : Sine) : Prop where
  rendered_eq : s'.rendered = s.rendered
  files_eq : s'.files = s.files

section

variable (s : Sine) (args : List Value)

theorem setOptions_spares (options : List String) : s.Spares (s.setOptions options).1 := by
  rw [setOptions_fst]
  induction s.taken options generalizing s with
  | nil => exact ⟨rfl, rfl⟩
  | cons c cs ih =>
    have hchange : s.Spares (s.apply c) := by cases c <;> exact ⟨rfl, rfl⟩
    exact ⟨(ih (s.apply c)).rendered_eq.trans hchange.rendered_eq, (ih (s.apply c)).files_eq.trans hchange.files_eq⟩

theorem compile_spares (document : String) : s.Spares (s.compile document.toList).1 := by
  have hoptions := setOptions_spares s (optionsOf document)
  rw [compile]
  dsimp only
  rw [← optionsOf]
  split
  · next heq =>
    rw [heq] at hoptions
    exact hoptions
  · next s' heq =>
    rw [heq] at hoptions
    obtain ⟨hrendered, hfiles⟩ := hoptions
    -- neither the orchestra nor the score of a document has a part in it
    cases section? document.toList "CsInstruments".toList <;>
      cases section? document.toList "CsScore".toList <;> exact ⟨hrendered, hfiles⟩

theorem callSetOption_spares (option : String) : s.Spares (s.callSetOption option).2 := by
  have hoption := setOptions_spares s [option]
  rw [setOptions] at hoption
  rw [callSetOption]
  cases hset : s.setOption? option with
  | ok s' =>
    rw [hset] at hoption
    exact hoption
  | error e => exact ⟨rfl, rfl⟩

/-- **An operation leaves alone what is rendered, and unless it writes or removes files, all files.** -/
theorem carryOut_spares {op : Operation} (hwrite : op ≠ .writeFile) (hremove : op ≠ .removeFiles) :
    Leaves s.Spares s (carryOut args op) := by
  have hsame : s.Spares s := ⟨rfl, rfl⟩
  cases op with
  | writeFile => exact absurd rfl hwrite
  | removeFiles => exact absurd rfl hremove
  | compileCsd =>
    refine .look (fun _ _ => hsame) fun document _ => ?_
    rw [Leaves, compileDocument_snd]
    exact compile_spares s document
  | setOption => exact .look (fun _ _ => hsame) fun option _ => callSetOption_spares s option
  | compileOrc =>
    refine .look (fun _ _ => hsame) fun code _ => ?_
    split <;> exact ⟨rfl, rfl⟩
  | tableGet =>
    exact .look (fun _ _ => hsame) fun _ _ => .look (fun _ _ => hsame) fun _ _ =>
      .look (x := s.table _) (fun _ _ => hsame) fun _ _ => .look (fun _ _ => hsame) fun _ _ => hsame
  | tableSet =>
    exact .look (fun _ _ => hsame) fun _ _ => .look (fun _ _ => hsame) fun _ _ => .look (fun _ _ => hsame) fun _ _ =>
      .look (x := s.table _) (fun _ _ => hsame) fun _ _ => .look (fun _ _ => hsame) fun _ _ => ⟨rfl, rfl⟩
  | readFile =>
    exact .look (fun _ _ => hsame) fun path _ => .look (x := s.file path) (fun _ _ => hsame) fun _ _ => hsame
  | setControlChannel | setStringChannel =>
    exact .look (fun _ _ => hsame) fun _ _ => .look (fun _ _ => hsame) fun _ _ => ⟨rfl, rfl⟩
  | readScore | inputMessage | evalCode | getControlChannel | getStringChannel | tableLength | setScorePending
  | setScoreOffset =>
    exact .look (fun _ _ => hsame) fun _ _ => ⟨rfl, rfl⟩
  | _ => exact ⟨rfl, rfl⟩

theorem call_spares {op : Operation} (hwrite : op ≠ .writeFile) (hremove : op ≠ .removeFiles) :
    s.Spares (s.call op args).2 :=
  (carryOut_spares s args hwrite hremove).call

end

end SynthControl.Sine
