/-!
# TOML documents as trees

A document is a table of nodes.  How a table came to be decides what may still be added to it.

* `Origin` — how a table came to be;
* `Node`, `Entries` — scalars, arrays and tables, and what a table holds;
* `set` — give a key a node;
* `walk` — change the table at the end of a path, making the tables on the way;
* `assign`, `openTable`, `openElement` — the three things that a statement does to a tree.

Main statements: `lookup_set_same`, `lookup_set_other` (a table is a map from keys to nodes).
-/

namespace SynthControl.Toml

/-- How a table came to be. -/
inductive Origin where
  | header
  | path
  | dotted
  /-- Between braces; nothing can be added to it. -/
  | braces
  deriving DecidableEq, Repr

/-- A node of a document. -/
inductive Node where
  | text (s : String)
  | integer (n : Int)
  | float (x : Float)
  | boolean (b : Bool)
  /-- A date, a time or both, as it is written. -/
  | moment (written : String)
  | array (elements : List Node)
  | table (origin : Origin) (entries : List (String × Node))
  /-- The tables under a header in double brackets. -/
  | tables (elements : List (List (String × Node)))

instance : Inhabited Node := ⟨.boolean false⟩

/-- What a table holds. -/
abbrev Entries := List (String × Node)

namespace Entries

/-- Give a key a node, in the place of the one it had. -/
def set (k : String) (v : Node) : Entries → Entries
  | [] => [(k, v)]
  | e :: es => if k = e.1 then (k, v) :: es else e :: set k v es

theorem lookup_set_same (k : String) (v : Node) (es : Entries) : (set k v es).lookup k = some v := by
  induction es with
  | nil => simp [set]
  | cons e es ih =>
    obtain ⟨m, w⟩ := e
    by_cases h : k = m
    · simp [set, h]
    · simp [set, h, List.lookup_cons, ih, beq_eq_false_iff_ne.2 h]

theorem lookup_set_other {k j : String} (h : j ≠ k) (v : Node) (es : Entries) :
    (set k v es).lookup j = es.lookup j := by
  induction es with
  | nil => simp [set, List.lookup_cons, beq_eq_false_iff_ne.2 h]
  | cons e es ih =>
    obtain ⟨m, w⟩ := e
    by_cases hk : k = m
    · subst hk
      simp [set, List.lookup_cons, beq_eq_false_iff_ne.2 h]
    · simp only [set, hk, if_false, List.lookup_cons, ih]

/-- Change the table at the end of a path.  Tables that are missing on the way are made, with the given
origin; of an array of tables the last one is meant; a dotted key does not lead through a table with a
header of its own. -/
def walk (made : Origin) (change : Origin → Entries → Option Entries) :
    List String → Origin → Entries → Option Entries
  | [], origin, es => change origin es
  | k :: path, _, es =>
    match es.lookup k with
    | none => (walk made change path made []).map fun t => set k (.table made t) es
    | some (.table .braces _) => none
    | some (.table origin t) =>
      if made = .dotted ∧ origin = .header then none
      else (walk made change path origin t).map fun t => set k (.table origin t) es
    | some (.tables ts) =>
      match ts.getLast? with
      | none => none
      | some t => (walk made change path .header t).map fun t => set k (.tables (ts.dropLast ++ [t])) es
    | some _ => none

/-- Give a new key a value.  A dotted key can only add to a table that dotted keys made. -/
def assign (path : List String) (key : String) (v : Node) : Entries → Option Entries :=
  let add (origin : Origin) (es : Entries) : Option Entries :=
    if (origin == .dotted) == path.isEmpty then none
    else if (es.lookup key).isSome then none
    else some (set key v es)
  walk .dotted add path .header

/-- Open the table under a header.  It may exist only as a step of the path of another header. -/
def openTable (path : List String) (key : String) : Entries → Option Entries :=
  let add (_ : Origin) (es : Entries) : Option Entries :=
    match es.lookup key with
    | none => some (set key (.table .header []) es)
    | some (.table .path t) => some (set key (.table .header t) es)
    | some _ => none
  walk .path add path .header

/-- Open a further table under a header in double brackets. -/
def openElement (path : List String) (key : String) : Entries → Option Entries :=
  let add (_ : Origin) (es : Entries) : Option Entries :=
    match es.lookup key with
    | none => some (set key (.tables [[]]) es)
    | some (.tables ts) => some (set key (.tables (ts ++ [[]])) es)
    | some _ => none
  walk .path add path .header

end Entries
end SynthControl.Toml
