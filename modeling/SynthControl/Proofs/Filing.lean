import SynthControl.Proofs.Adjustments

/-!
# The files of an engine

An engine keeps files in memory.  Two operations change them, and three tell of them; nothing else that is done to an
engine has a part in them, but for the end of an offline performance, which is written into a file.

* `BytesBelow`, `bytesBelow_of_lt` — the order of names is that of the bytes that encode them;
* `Sine.Within`, `Sine.isWithin_iff` — a name is a path, or lies below it;
* `Sine.Shelf`, `Sine.shelf` — what calls leave stored under each name; `Sine.Shelf.Answers` — what is answered by it;
* `Sine.LastWrote`, `Sine.shelf_eq_some_iff` — **what is stored is what was written last**, if it was not removed
  since;
* `Sine.Filed` — an engine, and all calls since it was built; `Sine.Filed.holds` — **its files are what the calls
  left**;
* `Sine.Filed.lawful` — **it answers by what its calls left**, whatever else was done to it.
-/

namespace SynthControl

/-! ### The order of names -/

/-- A name stands before another in the order of the bytes that encode them. -/
def BytesBelow (a b : String) : Prop := a.toUTF8.data.toList < b.toUTF8.data.toList

/-- The encodings of two characters part at some byte, and there the smaller character has the smaller byte. -/
theorem utf8EncodeChar_append_lt {c d : Char} (h : c < d) (xs ys : List UInt8) :
    String.utf8EncodeChar c ++ xs < String.utf8EncodeChar d ++ ys := by
  have hlt : c.val.toNat < d.val.toNat := h
  have hd : d.val.toNat < 0x110000 := by
    have hvalid := d.valid
    simp only [UInt32.isValidChar, Nat.isValidChar] at hvalid
    omega
  -- the first byte tells the length; the digits behind it are to the base 64
  simp only [String.utf8EncodeChar]
  split_ifs <;>
    simp (disch := omega) only [List.cons_append, List.nil_append, List.cons_lt_cons_iff, UInt8.lt_iff_toNat_lt,
      ← UInt8.toNat_inj, UInt8.toNat_ofNat', Nat.mod_eq_of_lt] <;>
    omega

theorem flatMap_utf8EncodeChar_lt {cs ds : List Char} (h : cs < ds) :
    cs.flatMap String.utf8EncodeChar < ds.flatMap String.utf8EncodeChar := by
  induction cs generalizing ds with
  | nil =>
    cases ds with
    | nil => exact absurd h (List.not_lt_nil _)
    | cons d ds =>
      obtain ⟨x, xs, hx⟩ := List.exists_cons_of_ne_nil (String.utf8EncodeChar_ne_nil (c := d))
      rw [List.flatMap_cons, hx]
      exact List.nil_lt_cons x _
  | cons c cs ih =>
    cases ds with
    | nil => exact absurd h (List.not_lt_nil _)
    | cons d ds =>
      rw [List.flatMap_cons, List.flatMap_cons]
      rcases List.cons_lt_cons_iff.1 h with hlt | ⟨rfl, hlt⟩
      · exact utf8EncodeChar_append_lt hlt _ _
      · exact List.append_left_lt (ih hlt)

theorem toUTF8_toList (s : String) : s.toUTF8.data.toList = s.toList.flatMap String.utf8EncodeChar := by
  rw [String.toUTF8_eq_toByteArray, ← String.utf8Encode_toList, List.utf8Encode]
  simp

/-- **The order of names is that of their bytes.** -/
theorem bytesBelow_of_lt {a b : String} (h : a < b) : BytesBelow a b := by
  rw [BytesBelow, toUTF8_toList, toUTF8_toList]
  exact flatMap_utf8EncodeChar_lt h

namespace Catalog

variable {β : Type}

theorem mem_names_iff (c : Catalog β) (name : String) : name ∈ c.names ↔ c.find? name ≠ none := by
  rw [names, find?]
  induction c.entries with
  | nil => simp
  | cons e es ih =>
    rw [List.map_cons, List.mem_cons, List.lookup_cons, ih]
    by_cases hname : name = e.1
    · subst hname
      simp
    · rw [beq_eq_false_iff_ne.2 hname]
      simp [hname]

/-- The contents that stand beside a name are what is found under it. -/
theorem find?_of_mem {c : Catalog β} {e : String × β} (h : e ∈ c.entries) : c.find? e.1 = some e.2 := by
  rw [find?]
  have hsorted := c.sorted
  revert h hsorted
  induction c.entries with
  | nil => exact fun h => absurd h List.not_mem_nil
  | cons d es ih =>
    intro h hsorted
    rw [List.lookup_cons]
    rcases List.mem_cons.1 h with rfl | hes
    · simp
    · -- the names increase, so that it is not the first one again
      have hne : e.1 ≠ d.1 := fun heq => String.lt_irrefl d.1 (heq ▸ List.rel_of_pairwise_cons hsorted hes)
      rw [beq_eq_false_iff_ne.2 hne]
      exact ih hes hsorted.of_cons

theorem size_eraseIf (c : Catalog β) (p : String → Bool) : (c.eraseIf p).size + c.names.countP p = c.size := by
  rw [size, size, eraseIf, names, List.countP_map, ← List.countP_eq_length_filter, Nat.add_comm,
    List.length_eq_countP_add_countP (p ∘ Prod.fst)]
  simp

end Catalog

namespace Sine

/-! ### Paths -/

/-- A name is a path itself, or begins with the path without its trailing slashes and one slash behind it. -/
def Within (path name : String) : Prop :=
  name = path ∨ ∃ (root : List Char) (slashes : Nat), path.toList = root ++ List.replicate slashes '/' ∧
    root.getLast? ≠ some '/' ∧ root ++ ['/'] <+: name.toList

/-- There is one way to take the slashes off the end of a path. -/
theorem below_eq {path : String} {root : List Char} {slashes : Nat}
    (h : path.toList = root ++ List.replicate slashes '/') (hroot : root.getLast? ≠ some '/') :
    below path = root ++ ['/'] := by
  have hreverse : path.toList.reverse.dropWhile (· == '/') = root.reverse := by
    rw [h, List.reverse_append, List.reverse_replicate,
      List.dropWhile_append_of_pos fun c hc => by simp [List.eq_of_mem_replicate hc]]
    rcases List.eq_nil_or_concat root with rfl | ⟨front, c, rfl⟩
    · rfl
    · have hc : c ≠ '/' := by simpa using hroot
      simp [hc]
  rw [below, hreverse, List.reverse_reverse]

theorem exists_root (path : String) :
    ∃ (root : List Char) (slashes : Nat), path.toList = root ++ List.replicate slashes '/' ∧
      root.getLast? ≠ some '/' := by
  have hsplit := List.takeWhile_append_dropWhile (p := (· == '/')) (l := path.toList.reverse)
  have hslashes : path.toList.reverse.takeWhile (· == '/') =
      List.replicate (path.toList.reverse.takeWhile (· == '/')).length '/' :=
    List.eq_replicate_of_mem fun c hc => by simpa using List.mem_takeWhile_imp hc
  refine ⟨(path.toList.reverse.dropWhile (· == '/')).reverse, (path.toList.reverse.takeWhile (· == '/')).length, ?_, ?_⟩
  · rw [← List.reverse_replicate, ← hslashes, ← List.reverse_append, hsplit, List.reverse_reverse]
  · rw [List.getLast?_reverse]
    intro hhead
    have hnot := List.head?_dropWhile_not (· == '/') path.toList.reverse
    rw [hhead] at hnot
    exact absurd hnot (by simp)

/-- **What is removed with a path** is the path itself and what begins with the path and one slash. -/
theorem isWithin_iff {path name : String} : isWithin path name = true ↔ Within path name := by
  rw [isWithin, Within, Bool.or_eq_true, beq_iff_eq, List.isPrefixOf_iff_prefix]
  refine or_congr_right ⟨fun h => ?_, fun ⟨root, slashes, hpath, hroot, h⟩ => ?_⟩
  · obtain ⟨root, slashes, hpath, hroot⟩ := exists_root path
    exact ⟨root, slashes, hpath, hroot, below_eq hpath hroot ▸ h⟩
  · rwa [below_eq hpath hroot]

instance (path name : String) : Decidable (Within path name) := decidable_of_iff _ isWithin_iff

/-- A name that only begins like a path is not removed with it. -/
theorem not_within_sibling {path rest : String} (hpath : path.toList.getLast? ≠ some '/') (hrest : rest ≠ "")
    (hslash : rest.toList.head? ≠ some '/') : ¬Within path (path ++ rest) := by
  rintro (h | ⟨root, slashes, hsplit, hroot, h⟩)
  · exact hrest (by simpa using congrArg String.toList h)
  · -- without slashes at its end the path is its own root
    have hbelow := below_eq hsplit hroot
    rw [below_eq (show path.toList = path.toList ++ List.replicate 0 '/' by simp) hpath] at hbelow
    rw [← hbelow, String.toList_append, List.prefix_append_right_inj] at h
    obtain ⟨t, ht⟩ := h
    exact hslash (by rw [← ht]; rfl)

/-! ### What calls leave -/

/-- What is stored under each name. -/
abbrev Shelf : Type := String → Option ByteArray

/-- What a call leaves on a shelf.  Only two operations change it, and only with arguments of their kinds. -/
def Shelf.after (m : Shelf) (args : List Value) : Operation → String → Option ByteArray
  | .writeFile, name =>
    match textArg args 0, bytesArg args 1 with
    | .ok path, .ok data => if name = path then some data else m name
    | _, _ => m name
  | .removeFiles, name =>
    match textArg args 0 with
    | .ok path => if Within path name then none else m name
    | .error _ => m name
  | _, name => m name

/-- What calls leave on an empty shelf. -/
def shelf (calls : List (Operation × List Value)) : Shelf :=
  calls.foldl (fun m call => m.after call.2 call.1) fun _ => none

/-- Names stand in the order of their bytes, and are exactly those under which something is stored. -/
structure Shelf.Lists (m : Shelf) (names : List String) : Prop where
  sorted : names.Pairwise BytesBelow
  mem_iff : ∀ name, name ∈ names ↔ m name ≠ none

/-- What the operations on files answer by what is stored. -/
inductive Shelf.Answers (m : Shelf) : Operation → List Value → Attempt Value → Prop where
  | written {args : List Value} {path : String} {data : ByteArray} (hpath : textArg args 0 = .ok path)
      (hdata : bytesArg args 1 = .ok data) : m.Answers .writeFile args (.ok .unit)
  | read {args : List Value} {path : String} {data : ByteArray} (hpath : textArg args 0 = .ok path)
      (h : m path = some data) : m.Answers .readFile args (.ok (.bytes data))
  | missing {args : List Value} {path : String} (hpath : textArg args 0 = .ok path) (h : m path = none) :
      m.Answers .readFile args (.failed (.noFile path))
  | listed {args : List Value} {names : List String} (h : m.Lists names) :
      m.Answers .listFiles args (.ok (.list (names.map .str)))
  | sized {args : List Value} {names : List String} (h : m.Lists names) :
      m.Answers .listFileSizes args
        (.ok (.list (names.map fun name => .list [.str name, .int ((m name).elim 0 ByteArray.size : Nat)])))
  | removed {args : List Value} {path : String} {names : List String} (hpath : textArg args 0 = .ok path)
      (h : m.Lists names) : m.Answers .removeFiles args (.ok (.int (names.countP (Within path ·) : Nat)))
  /-- A path that is no text, or data that are no bytes. -/
  | refused {op : Operation} {args : List Value} {e : EngineError}
      (h : op ∈ [.writeFile, .readFile, .removeFiles] ∧ textArg args 0 = .error e ∨
        op = .writeFile ∧ bytesArg args 1 = .error e) : m.Answers op args (.failed e)

/-- A call writes a name, or removes it. -/
inductive Touches (name : String) : Operation × List Value → Prop where
  | writes {args : List Value} {data : ByteArray} (hpath : textArg args 0 = .ok name)
      (hdata : bytesArg args 1 = .ok data) : Touches name (.writeFile, args)
  | removes {args : List Value} {path : String} (hpath : textArg args 0 = .ok path) (h : Within path name) :
      Touches name (.removeFiles, args)

/-- Of the calls that touched a name the last one wrote these bytes. -/
def LastWrote (calls : List (Operation × List Value)) (name : String) (data : ByteArray) : Prop :=
  ∃ before args after, calls = before ++ (.writeFile, args) :: after ∧ textArg args 0 = .ok name ∧
    bytesArg args 1 = .ok data ∧ ∀ call ∈ after, ¬Touches name call

section

variable {m : Shelf} {op : Operation} {args : List Value} {path name : String} {data : ByteArray}
  {calls : List (Operation × List Value)}

/-- A text is read as what is stored under it. -/
theorem Shelf.Answers.eq_of_read {answer : Attempt Value} (h : m.Answers .readFile args answer)
    (hpath : textArg args 0 = .ok path) :
    answer = (m path).elim (.failed (.noFile path)) fun data => .ok (.bytes data) := by
  cases h with
  | read hpath' hread =>
    cases hpath.symm.trans hpath'
    rw [hread]
    rfl
  | missing hpath' hmissing =>
    cases hpath.symm.trans hpath'
    rw [hmissing]
    rfl
  | refused h =>
    rcases h with ⟨-, herror⟩ | ⟨hop, -⟩
    · exact nomatch hpath.symm.trans herror
    · exact nomatch hop

theorem shelf_concat (calls : List (Operation × List Value)) (op : Operation) (args : List Value) :
    shelf (calls ++ [(op, args)]) = (shelf calls).after args op := by
  rw [shelf, List.foldl_append]
  rfl

theorem Shelf.after_write (hpath : textArg args 0 = .ok path) (hdata : bytesArg args 1 = .ok data) (name : String) :
    m.after args .writeFile name = if name = path then some data else m name := by
  simp only [Shelf.after, hpath, hdata]

theorem Shelf.after_remove (hpath : textArg args 0 = .ok path) (name : String) :
    m.after args .removeFiles name = if Within path name then none else m name := by
  simp only [Shelf.after, hpath]

/-- A call that does not touch a name leaves it. -/
theorem Shelf.after_of_not_touches (h : ¬Touches name (op, args)) : m.after args op name = m name := by
  cases op with
  | writeFile =>
    simp only [Shelf.after]
    split
    · next hpath hdata => exact if_neg fun heq => h (.writes (by rw [hpath, heq]) hdata)
    · rfl
  | removeFiles =>
    simp only [Shelf.after]
    split
    · next hpath => exact if_neg fun hwithin => h (.removes hpath hwithin)
    · rfl
  | _ => rfl

/-- A call that touches a name decides alone; any other leaves it as it was. -/
theorem lastWrote_concat_iff :
    LastWrote (calls ++ [(op, args)]) name data ↔
      op = .writeFile ∧ textArg args 0 = .ok name ∧ bytesArg args 1 = .ok data ∨
        ¬Touches name (op, args) ∧ LastWrote calls name data := by
  constructor
  · rintro ⟨before, args', after, hsplit, hpath, hdata, hafter⟩
    rcases List.eq_nil_or_concat after with rfl | ⟨after, last, rfl⟩
    · obtain ⟨-, hcall⟩ := List.append_inj' hsplit rfl
      cases hcall
      exact .inl ⟨rfl, hpath, hdata⟩
    · simp only [List.concat_eq_append] at hsplit hafter
      rw [← List.cons_append, ← List.append_assoc] at hsplit
      obtain ⟨rfl, hcall⟩ := List.append_inj' hsplit rfl
      cases hcall
      exact .inr ⟨hafter _ (by simp), before, args', after, rfl, hpath, hdata,
        fun call hcall => hafter call (List.mem_append_left _ hcall)⟩
  · rintro (⟨rfl, hpath, hdata⟩ | ⟨htouches, before, args', after, rfl, hpath, hdata, hafter⟩)
    · exact ⟨calls, args, [], rfl, hpath, hdata, nofun⟩
    · refine ⟨before, args', after ++ [(op, args)], by simp, hpath, hdata, fun call hcall => ?_⟩
      rcases List.mem_append.1 hcall with hcall | hcall
      · exact hafter call hcall
      · rwa [List.mem_singleton.1 hcall]

/-- **What is stored is what was written last**, if it was not removed since. -/
theorem shelf_eq_some_iff : shelf calls name = some data ↔ LastWrote calls name data := by
  induction calls using List.reverseRecOn with
  | nil => exact iff_of_false nofun fun ⟨before, args, after, h, _⟩ => by simp at h
  | append_singleton calls call ih =>
    obtain ⟨op, args⟩ := call
    rw [shelf_concat, lastWrote_concat_iff]
    by_cases htouches : Touches name (op, args)
    · cases htouches with
      | writes hpath hdata => simp [Shelf.after_write hpath hdata, hpath, hdata, Touches.writes hpath hdata]
      | removes hpath hwithin => simp [Shelf.after_remove hpath, hwithin, Touches.removes hpath hwithin]
    · rw [Shelf.after_of_not_touches htouches, ih]
      refine ⟨fun h => .inr ⟨htouches, h⟩, ?_⟩
      rintro (⟨rfl, hpath, hdata⟩ | ⟨-, h⟩)
      · exact absurd (.writes hpath hdata) htouches
      · exact h

end

/-! ### An engine and its calls -/

/-- An engine that was built from a setup, and all calls that were made since then, with whatever else may be done to
it in between; what is left out is the end of an offline performance, which is written into a file. -/
inductive Filed (setup : Setup) : List (Operation × List Value) → Sine → Prop where
  | built {s : Sine} (h : build? setup = .ok s) : Filed setup [] s
  | call {calls : List (Operation × List Value)} {s : Sine} (hs : Filed setup calls s) (op : Operation)
      (args : List Value) : Filed setup (calls ++ [(op, args)]) (s.call op args).2
  | option {calls : List (Operation × List Value)} {s s' : Sine} {o : String} (hs : Filed setup calls s)
      (h : s.setOption? o = .ok s') : Filed setup calls s'
  | start {calls : List (Operation × List Value)} {s : Sine} (hs : Filed setup calls s) (io : Io) :
      Filed setup calls (s.start io).2.1
  | perform {calls : List (Operation × List Value)} {s : Sine} (hs : Filed setup calls s) (io : Io) :
      Filed setup calls (s.perform io).2.1
  | cleanup {calls : List (Operation × List Value)} {s : Sine} (hs : Filed setup calls s)
      (hmode : s.mode = .realtime) (io : Io) : Filed setup calls (s.cleanup io).2.1
  | drain {calls : List (Operation × List Value)} {s : Sine} (hs : Filed setup calls s) : Filed setup calls s.drain.2
  | reset {calls : List (Operation × List Value)} {s : Sine} (hs : Filed setup calls s) : Filed setup calls s.reset.2

section

variable {setup : Setup} {calls : List (Operation × List Value)} {s s' : Sine}

theorem build?_files (h : build? setup = .ok s) : s.files = .empty := by
  have hfresh := (setOptions_spares (fresh setup) setup.options).files_eq
  rw [build?] at h
  split at h
  · next heq =>
    cases h
    rw [heq] at hfresh
    exact hfresh
  · cases h

theorem start_files (io : Io) (s : Sine) : (s.start io).2.1.files = s.files := by
  rw [start]
  dsimp only
  split <;> rfl

theorem perform_files (io : Io) (s : Sine) : (s.perform io).2.1.files = s.files := by
  rw [perform]
  split
  · rfl
  · by_cases hinput : s.mode = .realtime ∧ s.input.size ≠ 0
    · simp only [if_pos hinput]
      split <;> rfl
    · simp only [if_neg hinput]
      split <;> rfl

theorem cleanup_files (hmode : s.mode = .realtime) (io : Io) : (s.cleanup io).2.1.files = s.files := by
  rw [cleanup]
  dsimp only
  rw [if_neg (by rw [hmode]; decide)]
  rfl

/-- What is done to an engine, keeps it an engine of its setup. -/
theorem Filed.exists_tuned (h : Filed setup calls s) : ∃ changes, Tuned setup changes s := by
  induction h with
  | built h => exact ⟨_, .built h⟩
  | call _ op args ih => exact ih.imp' _ fun _ h => h.call op args
  | option _ h ih => exact ih.imp' _ fun _ hs => hs.option h
  | start _ io ih => exact ih.imp fun _ h => h.start io
  | perform _ io ih => exact ih.imp fun _ h => h.perform io
  | cleanup _ _ io ih => exact ih.imp fun _ h => h.cleanup io
  | drain _ ih => exact ih.imp fun _ h => h.drain
  | reset _ ih => exact ih.imp' _ fun _ h => h.reset

theorem Filed.reset_files (h : Filed setup calls s) : s.reset.2.files = s.files := by
  obtain ⟨changes, htuned⟩ := h.exists_tuned
  obtain ⟨e, he⟩ := htuned.build?_isOk
  rw [Sine.reset, htuned.tracks.origin_eq, he]
  rfl

/-! ### The operations on files -/

theorem call_writeFile (s : Sine) (args : List Value) :
    s.call .writeFile args =
      match textArg args 0, bytesArg args 1 with
      | .ok path, .ok data => (.ok .unit, { s with files := s.files.insert path data })
      | .ok _, .error e => (.failed e, s)
      | .error e, _ => (.failed e, s) := by
  simp only [Sine.call, carryOut]
  cases textArg args 0 with
  | error e => rfl
  | ok path => cases bytesArg args 1 <;> rfl

/-- What a file holds, or the complaint about it, is all that reading it comes to. -/
theorem carryOut_readFile (s : Sine) {args : List Value} {path : String} (hpath : textArg args 0 = .ok path) :
    (carryOut args .readFile).run.run s = ((s.file path).map .bytes, s) := by
  simp only [carryOut, hpath]
  show (liftM (s.file path) >>= fun data => pure (.bytes data) : Action Value).run.run s = _
  cases s.file path <;> rfl

theorem call_readFile (s : Sine) (args : List Value) :
    s.call .readFile args =
      match textArg args 0 with
      | .ok path =>
        match s.files.find? path with
        | some data => (.ok (.bytes data), s)
        | none => (.failed (.noFile path), s)
      | .error e => (.failed e, s) := by
  cases hpath : textArg args 0 with
  | error e =>
    simp only [Sine.call, carryOut, hpath]
    rfl
  | ok path =>
    rw [Sine.call, carryOut_readFile s hpath, file]
    dsimp only
    cases s.files.find? path <;> rfl

theorem call_removeFiles (s : Sine) (args : List Value) :
    s.call .removeFiles args =
      match textArg args 0 with
      | .ok path => (.ok (s.removeFiles path).1, (s.removeFiles path).2)
      | .error e => (.failed e, s) := by
  simp only [Sine.call, carryOut]
  cases textArg args 0 <;> rfl

/-- The number of files removed is the number of names within the path. -/
theorem removeFiles_fst (s : Sine) (path : String) :
    (s.removeFiles path).1 = .int (s.files.names.countP (Within path ·) : Nat) := by
  have hcount := s.files.size_eraseIf (isWithin path)
  have hwithin : s.files.names.countP (isWithin path) = s.files.names.countP (Within path ·) :=
    List.countP_congr fun name _ => by rw [isWithin_iff, decide_eq_true_iff]
  rw [removeFiles]
  dsimp only
  rw [← hwithin]
  congr 2
  omega

/-- The files of an engine are those of a shelf. -/
def Holds (s : Sine) (m : Shelf) : Prop := ∀ name, s.files.find? name = m name

/-- **A call leaves in the files what it leaves on a shelf.** -/
theorem Holds.call {m : Shelf} (h : s.Holds m) (op : Operation) (args : List Value) :
    (s.call op args).2.Holds (m.after args op) := by
  intro name
  by_cases hwrite : op = .writeFile
  · subst hwrite
    rw [call_writeFile]
    cases hpath : textArg args 0 with
    | error e => simpa only [Shelf.after, hpath] using h name
    | ok path =>
      cases hdata : bytesArg args 1 with
      | error e => simpa only [Shelf.after, hpath, hdata] using h name
      | ok data =>
        rw [Shelf.after_write hpath hdata]
        dsimp only
        by_cases hname : name = path
        · rw [if_pos hname, hname, Catalog.find?_insert_same]
        · rw [if_neg hname, Catalog.find?_insert_other _ _ hname, h name]
  · by_cases hremove : op = .removeFiles
    · subst hremove
      rw [call_removeFiles]
      cases hpath : textArg args 0 with
      | error e => simpa only [Shelf.after, hpath] using h name
      | ok path =>
        rw [Shelf.after_remove hpath, ← h name]
        simp only [removeFiles, Catalog.find?_eraseIf, isWithin_iff]
    · rw [(call_spares s args hwrite hremove).files_eq, h name]
      cases op <;> first | rfl | contradiction

/-- The names of the files are those of the shelf, in order. -/
theorem Holds.lists {m : Shelf} (h : s.Holds m) : m.Lists s.files.names where
  sorted := s.files.sorted_names.imp bytesBelow_of_lt
  mem_iff name := by rw [Catalog.mem_names_iff, h name]

/-- **The operations on files answer by what is stored.** -/
theorem Holds.answers {m : Shelf} (h : s.Holds m) {op : Operation} (hop : op.dispatch = .direct) (args : List Value) :
    m.Answers op args (s.call op args).1 := by
  cases op with
  | writeFile =>
    rw [call_writeFile]
    cases hpath : textArg args 0 with
    | error e => exact .refused (.inl ⟨by simp, hpath⟩)
    | ok path =>
      cases hdata : bytesArg args 1 with
      | error e => exact .refused (.inr ⟨rfl, hdata⟩)
      | ok data => exact .written hpath hdata
  | readFile =>
    rw [call_readFile]
    cases hpath : textArg args 0 with
    | error e => exact .refused (.inl ⟨by simp, hpath⟩)
    | ok path =>
      dsimp only
      cases hfound : s.files.find? path with
      | none => exact .missing hpath ((h path).symm.trans hfound)
      | some data => exact .read hpath ((h path).symm.trans hfound)
  | listFiles => exact .listed h.lists
  | listFileSizes =>
    have hsizes : (s.files.entries.map fun e => Value.list [.str e.1, .int e.2.size]) =
        s.files.names.map fun name => .list [.str name, .int ((m name).elim 0 ByteArray.size : Nat)] := by
      rw [Catalog.names, List.map_map]
      refine List.map_congr_left fun e he => ?_
      rw [Function.comp_apply, ← h e.1, Catalog.find?_of_mem he]
      rfl
    show m.Answers .listFileSizes args (.ok (.list (s.files.entries.map _)))
    rw [hsizes]
    exact .sized h.lists
  | removeFiles =>
    rw [call_removeFiles]
    cases hpath : textArg args 0 with
    | error e => exact .refused (.inl ⟨by simp, hpath⟩)
    | ok path =>
      dsimp only
      rw [removeFiles_fst]
      exact .removed hpath h.lists
  | _ => cases hop

/-- What was removed is not there to be removed again. -/
theorem Holds.removed_again {m : Shelf} (h : s.Holds m) {args : List Value} {path : String}
    (hpath : textArg args 0 = .ok path) : ((s.call .removeFiles args).2.call .removeFiles args).1 = .ok (.int 0) := by
  have hafter := h.call .removeFiles args
  rw [call_removeFiles _ args, hpath]
  dsimp only
  rw [removeFiles_fst, List.countP_eq_zero.2 fun name hname => ?_]
  · rfl
  · rw [Catalog.mem_names_iff, hafter name, Shelf.after_remove hpath] at hname
    exact fun hwithin => hname (if_pos (of_decide_eq_true hwithin))

/-- **The files of an engine are what its calls left.** -/
theorem Filed.holds (h : Filed setup calls s) : s.Holds (shelf calls) := by
  induction h with
  | built h =>
    intro name
    rw [build?_files h]
    rfl
  | call _ op args ih =>
    rw [shelf_concat]
    exact ih.call op args
  | @option _ s s' o _ h ih =>
    have hoption := (setOptions_spares s [o]).files_eq
    rw [Sine.setOptions, h] at hoption
    exact fun name => by rw [show s'.files = s.files from hoption, ih]
  | start _ io ih => exact fun name => by rw [start_files, ih]
  | perform _ io ih => exact fun name => by rw [perform_files, ih]
  | cleanup _ hmode io ih => exact fun name => by rw [cleanup_files hmode, ih]
  | drain _ ih => exact ih
  | reset hs ih => exact fun name => by rw [hs.reset_files, ih]

/-- **An engine answers by what its calls left in its file system**, whatever else was done to it: what was written
last under a name that was not removed since is read; the names are listed in the order of their bytes, each once;
and what is removed is a path with everything below it. -/
theorem Filed.lawful (h : Filed setup calls s) :
    (∀ op args, op.dispatch = .direct → (shelf calls).Answers op args (s.call op args).1) ∧
      (∀ args path, textArg args 0 = .ok path →
        ((s.call .removeFiles args).2.call .removeFiles args).1 = .ok (.int 0)) ∧
      ∀ name data, shelf calls name = some data ↔ LastWrote calls name data :=
  ⟨fun _ args hop => h.holds.answers hop args, fun _ _ hpath => h.holds.removed_again hpath,
    fun _ _ => shelf_eq_some_iff⟩

/-- A file below a path is removed with the path, and one that only begins like it stays. -/
theorem Filed.lawful_sibling :
    ∃ s, Filed ⟨{}, []⟩ [(.writeFile, [.str "a/1", .bytes ⟨#[1]⟩]), (.writeFile, [.str "ab", .bytes ⟨#[7]⟩]),
        (.removeFiles, [.str "a//"])] s ∧
      (s.call .readFile [.str "a/1"]).1 = .failed (.noFile "a/1") ∧
      (s.call .readFile [.str "ab"]).1 = .ok (.bytes ⟨#[7]⟩) := by
  have hwritten : Filed ⟨{}, []⟩ _ _ := (Filed.built rfl).call .writeFile [.str "a/1", .bytes ⟨#[1]⟩]
  have hfiled := (hwritten.call .writeFile [.str "ab", .bytes ⟨#[7]⟩]).call .removeFiles [.str "a//"]
  obtain ⟨hanswers, -, -⟩ := Filed.lawful hfiled
  have hbelow : Within "a//" "a/1" := by decide
  have hsibling : ¬Within "a//" "ab" := by decide
  refine ⟨_, hfiled, ?_, ?_⟩
  · rw [(hanswers .readFile [.str "a/1"] rfl).eq_of_read rfl, shelf_concat, Shelf.after_remove rfl, if_pos hbelow]
    rfl
  · rw [(hanswers .readFile [.str "ab"] rfl).eq_of_read rfl, shelf_concat, Shelf.after_remove rfl, if_neg hsibling,
      shelf_concat, Shelf.after_write rfl rfl, if_pos rfl]
    rfl

end

end Sine
end SynthControl
