/-!
# Catalogs

Finite maps from names to contents, kept in increasing order of the names, which is the order of their
bytes.

* `Catalog` — the entries, in strictly increasing order;
* `find?`, `insert`, `eraseIf` — look-up, write, removal of all names with a property;
* `names`, `size` — listing and count.

Main statements: `find?_insert_same`, `find?_insert_other`, `find?_eraseIf`, `sorted_names`.
-/

namespace SynthControl

/-- A finite map from names to contents. -/
structure Catalog (β : Type) where
  entries : List (String × β) := []
  sorted : entries.Pairwise fun a b => a.1 < b.1 := by exact .nil

namespace Catalog

variable {β : Type}

/-- The catalog without entries. -/
def empty : Catalog β := {}

/-- The contents of a name. -/
def find? (c : Catalog β) (name : String) : Option β := c.entries.lookup name

/-- Write an entry at its place; an entry of the same name is replaced. -/
def insertAt (name : String) (b : β) : List (String × β) → List (String × β)
  | [] => [(name, b)]
  | e :: es =>
    if e.1 < name then e :: insertAt name b es
    else if name < e.1 then (name, b) :: e :: es
    else (name, b) :: es

theorem mem_insertAt {name : String} {b : β} {es : List (String × β)} {x : String × β}
    (h : x ∈ insertAt name b es) : x = (name, b) ∨ x ∈ es := by
  induction es with
  | nil => simpa [insertAt] using h
  | cons e es ih =>
    simp only [insertAt] at h
    split at h
    · rcases List.mem_cons.1 h with rfl | h
      · exact .inr (List.mem_cons_self ..)
      · exact (ih h).imp id (List.mem_cons_of_mem _)
    · split at h
      · exact List.mem_cons.1 h
      · exact (List.mem_cons.1 h).imp id (List.mem_cons_of_mem _)

theorem sorted_insertAt (name : String) (b : β) {es : List (String × β)}
    (h : es.Pairwise fun a b => a.1 < b.1) :
    (insertAt name b es).Pairwise fun a b => a.1 < b.1 := by
  induction es with
  | nil => simp [insertAt]
  | cons e es ih =>
    obtain ⟨he, hes⟩ := List.pairwise_cons.1 h
    simp only [insertAt]
    split
    · next hlt =>
      refine List.pairwise_cons.2 ⟨fun x hx => ?_, ih hes⟩
      rcases mem_insertAt hx with rfl | hx
      · exact hlt
      · exact he x hx
    · next hge =>
      split
      · next hlt =>
        refine List.pairwise_cons.2 ⟨fun x hx => ?_, h⟩
        rcases List.mem_cons.1 hx with rfl | hx
        · exact hlt
        · exact String.lt_trans hlt (he x hx)
      · next hle =>
        have : e.1 = name := String.le_antisymm (String.not_lt.1 hle) (String.not_lt.1 hge)
        exact List.pairwise_cons.2 ⟨fun x hx => this ▸ he x hx, hes⟩

/-- Write an entry; an entry of the same name is replaced. -/
def insert (c : Catalog β) (name : String) (b : β) : Catalog β :=
  ⟨insertAt name b c.entries, sorted_insertAt name b c.sorted⟩

/-- Remove every entry whose name has a property. -/
def eraseIf (c : Catalog β) (p : String → Bool) : Catalog β :=
  ⟨c.entries.filter fun e => !p e.1, c.sorted.filter _⟩

/-- The names, in increasing order. -/
def names (c : Catalog β) : List String := c.entries.map Prod.fst

/-- The number of entries. -/
def size (c : Catalog β) : Nat := c.entries.length

/-! ### Reading what was written -/

/-- The names strictly increase. -/
theorem sorted_names (c : Catalog β) : c.names.Pairwise (· < ·) :=
  List.pairwise_map.2 c.sorted

theorem lookup_insertAt_same (name : String) (b : β) (es : List (String × β)) :
    (insertAt name b es).lookup name = some b := by
  induction es with
  | nil => simp [insertAt]
  | cons e es ih =>
    obtain ⟨n, v⟩ := e
    simp only [insertAt]
    split
    · next h =>
      have hne : name ≠ n := fun hn => String.lt_irrefl name (by subst hn; exact h)
      simp [List.lookup_cons, beq_eq_false_iff_ne.2 hne, ih]
    · split <;> simp

theorem lookup_insertAt_other {name other : String} (h : other ≠ name) (b : β)
    (es : List (String × β)) : (insertAt name b es).lookup other = es.lookup other := by
  have hn : (other == name) = false := beq_eq_false_iff_ne.2 h
  induction es with
  | nil => simp [insertAt, List.lookup_cons, hn]
  | cons e es ih =>
    obtain ⟨n, v⟩ := e
    simp only [insertAt]
    split
    · simp [List.lookup_cons, ih]
    · next hge =>
      split
      · simp [List.lookup_cons, hn]
      · next hle =>
        obtain rfl : n = name := String.le_antisymm (String.not_lt.1 hle) (String.not_lt.1 hge)
        simp [List.lookup_cons, hn]

/-- What was written last under a name is found. -/
@[simp] theorem find?_insert_same (c : Catalog β) (name : String) (b : β) :
    (c.insert name b).find? name = some b := lookup_insertAt_same ..

/-- Writing changes no other name. -/
theorem find?_insert_other (c : Catalog β) {name other : String} (b : β) (h : other ≠ name) :
    (c.insert name b).find? other = c.find? other := lookup_insertAt_other h ..

/-- Removal leaves exactly the names without the property. -/
theorem find?_eraseIf (c : Catalog β) (p : String → Bool) (name : String) :
    (c.eraseIf p).find? name = if p name then none else c.find? name := by
  simp only [eraseIf, find?]
  induction c.entries with
  | nil => simp
  | cons e es ih =>
    obtain ⟨n, v⟩ := e
    by_cases hn : name = n
    · subst hn
      cases hp : p name <;> simp only [hp] at ih <;> simp [hp, ih]
    · have hb : (name == n) = false := beq_eq_false_iff_ne.2 hn
      cases hp : p n <;> simp [List.lookup_cons, hp, hb, ih]

end Catalog
end SynthControl
