import SynthControl.Toml.Expression

/-!
# TOML documents

A document is a sequence of statements, each on a line of its own.

* `Statement`, `statement?` — a key with its value, or a header;
* `statements?` — every statement of a text;
* `Draft`, `Draft.perform` — a document that is being built: its tree, and the table that keys go to;
* `build?`, `parse?` — the document of some statements, and of a text.
-/

namespace SynthControl.Toml

/-- A statement; a path is given by the keys before the last one, and the last one. -/
inductive Statement where
  | assign (path : List String) (key : String) (value : Node)
  | header (path : List String) (key : String)
  | element (path : List String) (key : String)

/-- A statement with its line end. -/
def statement? (s : List Char) : Option (Statement × List Char) :=
  match s with
  | '[' :: '[' :: r => do
    let ((path, k), r) ← keyPath? r
    let r ← lineEnd? (← mark? ']' (← mark? ']' r))
    return (.element path k, r)
  | '[' :: r => do
    let ((path, k), r) ← keyPath? r
    let r ← lineEnd? (← mark? ']' r)
    return (.header path k, r)
  | _ => do
    let ((path, k), r) ← keyPath? s
    let (v, r) ← value? (skipBlanks (← mark? '=' r))
    let r ← lineEnd? r
    return (.assign path k v, r)

/-- Every statement of a text; lines without one are passed over. -/
def statements? (s : List Char) : Option (List Statement) :=
  match skipBlanks s with
  | [] => some []
  | c :: r =>
    if c = '#' ∨ c = '\n' ∨ c = '\r' then
      match lineEnd? (c :: r) with
      | none => none
      | some rest => if rest.length < s.length then statements? rest else none
    else
      match statement? (c :: r) with
      | none => none
      | some (x, rest) =>
        if rest.length < s.length then (statements? rest).map (x :: ·) else none
termination_by s.length

/-! ### The tree of the statements -/

/-- A document that is being built. -/
structure Draft where
  root : Entries := []
  /-- The path of the table that keys go to. -/
  here : List String := []

/-- Perform a statement. -/
def Draft.perform (d : Draft) : Statement → Option Draft
  | .assign path k v =>
    (Entries.walk .path (fun _ es => es.assign path k v) d.here .header d.root).map
      fun root => { d with root := root }
  | .header path k => (d.root.openTable path k).map fun root => ⟨root, path ++ [k]⟩
  | .element path k => (d.root.openElement path k).map fun root => ⟨root, path ++ [k]⟩

/-- The document of some statements. -/
def build? (xs : List Statement) : Option Entries := (xs.foldlM Draft.perform {}).map Draft.root

/-- What follows a mark of the byte order, if there is one. -/
def skipOrderMark : List Char → List Char
  | '\uFEFF' :: r => r
  | s => s

/-- The document of a text. -/
def parse? (s : List Char) : Option Entries := (statements? (skipOrderMark s)).bind build?

end SynthControl.Toml
