import SynthControl.FileTree

/-!
# Files keep what is stored in them

* `pieces_eq_splitOn`, `makeDirectories?_parent` — making the directories of a path goes along the steps in front of
  its last one;
* `Extends`, `makeSteps?_extends`, `Extends.read?` — making directories leaves everything where it is, and **every
  file as it was**;
* `makeDirectories?_of_read?` — the directories of a file that is there are there;
* `Takes`, `read?_write?` — where a path leads to a place for a file, **what is written is read**.
-/

namespace SynthControl

namespace Path

/-- The pieces between slashes are those of the library. -/
theorem pieces_eq_splitOn (s : List Char) : pieces s = s.splitOn '/' := by
  induction s with
  | nil => rfl
  | cons c r ih =>
    rw [pieces, ih, List.splitOn_cons_eq_if_modifyHead]
    by_cases hc : c = '/'
    · rw [if_pos hc, if_pos (by simpa using hc)]
    · rw [if_neg hc, if_neg (by simpa using hc)]
      obtain ⟨p, ps, hps⟩ := List.exists_cons_of_ne_nil (List.splitOn_ne_nil '/' r)
      rw [hps]
      rfl

theorem slash_notMem_pieces {s p : List Char} (hp : p ∈ pieces s) : '/' ∉ p := by
  induction s generalizing p with
  | nil =>
    obtain rfl := List.mem_singleton.1 hp
    exact List.not_mem_nil
  | cons c r ih =>
    rw [pieces] at hp
    split at hp
    · rcases List.mem_cons.1 hp with rfl | hp
      · exact List.not_mem_nil
      · exact ih hp
    · next hc =>
      cases hr : pieces r with
      | nil =>
        rw [hr] at hp
        obtain rfl := List.mem_singleton.1 hp
        simpa using Ne.symm hc
      | cons q qs =>
        rw [hr] at hp ih
        rcases List.mem_cons.1 hp with rfl | hp
        · rw [List.mem_cons, not_or]
          exact ⟨Ne.symm hc, ih List.mem_cons_self⟩
        · exact ih (List.mem_cons_of_mem _ hp)

/-- Steps of a path make a path with these steps. -/
theorem steps_intercalate {path : String} {names : List String} (hnames : names ⊆ steps path) :
    steps ("/".intercalate names) = if names = [] then [""] else names := by
  split
  · next hnil =>
    rw [hnil]
    rfl
  · next hne =>
    have hslash : ∀ p ∈ names.map String.toList, '/' ∉ p := by
      intro p hp
      obtain ⟨name, hname, rfl⟩ := List.mem_map.1 hp
      obtain ⟨q, hq, rfl⟩ := List.mem_map.1 (hnames hname)
      rw [String.toList_ofList]
      exact slash_notMem_pieces hq
    have hid : String.ofList ∘ String.toList = id := funext fun _ => String.ofList_toList
    have htext : ("/".intercalate names).toList = ['/'].intercalate (names.map String.toList) :=
      String.toList_intercalate ..
    rw [steps, htext, pieces_eq_splitOn, List.splitOn_intercalate _ hslash fun h => hne (List.map_eq_nil_iff.1 h),
      List.map_map, hid, List.map_id]

theorem trimmed_isPrefix (names : List String) : trimmed names <+: names := by
  rw [← List.reverse_suffix, trimmed, List.reverse_reverse]
  exact List.dropWhile_suffix _

theorem lead_isPrefix (names : List String) : lead names <+: names :=
  (trimmed_isPrefix _).trans ((List.dropLast_prefix _).trans (trimmed_isPrefix names))

/-- The steps to the directory that a path leads into. -/
theorem steps_parent (path : String) :
    steps (parent path) = if lead (steps path) = [] then [""] else lead (steps path) :=
  steps_intercalate (lead_isPrefix _).subset

example : parent "a/b//c/." = "a/b" := by decide +kernel

/-- A path has a last step. -/
theorem steps_ne_nil (path : String) : steps path ≠ [] := by
  rw [steps, pieces_eq_splitOn, ne_eq, List.map_eq_nil_iff]
  exact List.splitOn_ne_nil _ _

/-- At least one step is left behind those to the directory. -/
theorem exists_lead_append (path : String) : ∃ rest, rest ≠ [] ∧ lead (steps path) ++ rest = steps path := by
  obtain ⟨rest, hrest⟩ := lead_isPrefix (steps path)
  refine ⟨rest, ?_, hrest⟩
  rintro rfl
  have hpos := List.length_pos_iff.2 (steps_ne_nil path)
  have hshort := (trimmed_isPrefix (trimmed (steps path)).dropLast).length_le
  have htrimmed := (trimmed_isPrefix (steps path)).length_le
  rw [List.append_nil] at hrest
  rw [show trimmed (trimmed (steps path)).dropLast = steps path from hrest, List.length_dropLast] at hshort
  omega

end Path

namespace FileTree

variable {t t' : FileTree} {place q : List String} {bytes : ByteArray}

/-- The directories of a path are those along the steps in front of its last one. -/
theorem makeDirectories?_parent (path : String) (t : FileTree) :
    makeDirectories? (Path.parent path) t = t.makeSteps? [] (Path.lead (Path.steps path)) := by
  rw [makeDirectories?, Path.steps_parent]
  split
  · next hnil =>
    rw [hnil]
    rfl
  · rfl

/-! ### Making directories -/

/-- Everything in the one tree is in the other one. -/
def Extends (t t' : FileTree) : Prop := ∀ q e, t.at? q = some e → t'.at? q = some e

/-- Making directories leaves everything where it is. -/
theorem makeSteps?_extends {names : List String} (h : t.makeSteps? place names = some t') : t.Extends t' := by
  induction names generalizing t place with
  | nil =>
    obtain rfl := Option.some.inj h
    exact fun _ _ he => he
  | cons name names ih =>
    rw [makeSteps?] at h
    split at h
    · exact ih h
    split at h
    · exact ih h
    dsimp only at h
    split at h
    · exact ih h
    · cases h
    · next hfree =>
      intro q e he
      refine ih h q e ?_
      rw [at?_put_other]
      · exact he
      · rintro rfl
        rw [hfree] at he
        cases he

/-! ### Where a path leads to -/

theorem isDirectory_iff : t.isDirectory q = true ↔ t.at? q = some .directory := by
  rw [isDirectory]
  split <;> simp_all

/-- The place that one step leads to. -/
def stepFrom (place : List String) (name : String) : List String :=
  if name = "" ∨ name = "." then place else if name = ".." then place.dropLast else place ++ [name]

/-- Every step starts from a directory. -/
theorem follow_cons (t : FileTree) (place : List String) (name : String) (rest : List String) :
    t.follow place (name :: rest) = if t.isDirectory place then t.follow (stepFrom place name) rest else none := by
  rw [follow, stepFrom]
  cases t.isDirectory place with
  | false => rfl
  | true =>
    rw [if_neg (by decide), if_pos rfl]
    split
    · rfl
    · split <;> rfl

/-- What leads to a place leads there in every tree with the same directories. -/
theorem follow_mono (hdir : ∀ q, t.isDirectory q = true → t'.isDirectory q = true) {names : List String}
    (h : t.follow place names = some q) : t'.follow place names = some q := by
  induction names generalizing place with
  | nil => exact h
  | cons name names ih =>
    rw [follow_cons] at h ⊢
    split at h
    · next hplace =>
      rw [if_pos (hdir place hplace)]
      exact ih h
    · cases h

theorem Extends.isDirectory (hext : t.Extends t') {q : List String} (h : t.isDirectory q = true) :
    t'.isDirectory q = true := isDirectory_iff.2 (hext q _ (isDirectory_iff.1 h))

/-- A file that is read is where its path leads to. -/
theorem read?_eq_some_iff {path : String} :
    t.read? path = some bytes ↔ ∃ q, t.resolve? path = some q ∧ t.at? q = some (.file bytes) := by
  rw [read?, find?]
  constructor
  · intro h
    split at h
    · next found hfound =>
      obtain rfl := Option.some.inj h
      exact Option.bind_eq_some_iff.1 hfound
    · cases h
  · rintro ⟨q, hq, hfile⟩
    rw [hq, Option.bind_some, hfile]

/-- **A file is read as before in a tree that holds more.** -/
theorem Extends.read? (hext : t.Extends t') {path : String} (h : t.read? path = some bytes) :
    t'.read? path = some bytes := by
  obtain ⟨q, hq, hfile⟩ := read?_eq_some_iff.1 h
  exact read?_eq_some_iff.2 ⟨q, follow_mono (fun _ => hext.isDirectory) hq, hext q _ hfile⟩

/-- Where some steps and further ones lead anywhere, all directories on the way are there. -/
theorem makeSteps?_of_follow {names rest : List String} (hrest : rest ≠ [])
    (h : t.follow place (names ++ rest) = some q) : t.makeSteps? place names = some t := by
  induction names generalizing place with
  | nil => rfl
  | cons name names ih =>
    rw [List.cons_append, follow_cons, stepFrom] at h
    split at h
    · rw [makeSteps?]
      split
      · rw [if_pos ‹_›] at h
        exact ih h
      rw [if_neg ‹_›] at h
      split
      · rw [if_pos ‹_›] at h
        exact ih h
      rw [if_neg ‹_›] at h
      -- the next step starts from the directory
      have hnext : t.isDirectory (place ++ [name]) = true := by
        obtain ⟨next, more, hnext⟩ := List.exists_cons_of_ne_nil (List.append_ne_nil_of_right_ne_nil names hrest)
        rw [hnext, follow_cons] at h
        exact (Option.ite_none_right_eq_some.1 h).1
      dsimp only
      rw [isDirectory_iff.1 hnext]
      exact ih h
    · cases h

/-- The directories of a file that is there are there. -/
theorem makeDirectories?_of_read? {path : String} (h : t.read? path = some bytes) :
    makeDirectories? (Path.parent path) t = some t := by
  obtain ⟨q, hq, -⟩ := read?_eq_some_iff.1 h
  obtain ⟨rest, hrest, hsteps⟩ := Path.exists_lead_append path
  rw [resolve?, ← hsteps] at hq
  rw [makeDirectories?_parent]
  exact makeSteps?_of_follow hrest hq

/-! ### Storing files -/

/-- The path leads to a place for a file, once the directories on the way are made. -/
def Takes (t : FileTree) (path : String) : Prop :=
  ∃ t' place, makeDirectories? (Path.parent path) t = some t' ∧ t'.resolve? path = some place ∧
    t'.isDirectory place = false

/-- A file that is put in the place of no directory leaves the directories. -/
theorem isDirectory_put (hplace : t.isDirectory place = false) {q : List String} (h : t.isDirectory q = true) :
    (t.put place (.file bytes)).isDirectory q = true := by
  have hq : q ≠ place := by
    rintro rfl
    rw [hplace] at h
    cases h
  rw [isDirectory_iff, at?_put_other hq, ← isDirectory_iff]
  exact h

/-- **What is written is read.** -/
theorem read?_write? {path : String} (h : write? path bytes t = some t') : t'.read? path = some bytes := by
  rw [write?] at h
  split at h
  · cases h
  · next place hplace =>
    split at h
    · cases h
    · next hfree =>
      obtain rfl := Option.some.inj h
      rw [Bool.not_eq_true] at hfree
      have hne : place ≠ [] := by
        rintro rfl
        cases hfree
      exact read?_eq_some_iff.2
        ⟨place, follow_mono (fun _ => isDirectory_put hfree) hplace, at?_put_same hne _ t⟩

end FileTree
end SynthControl
