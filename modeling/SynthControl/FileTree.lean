/-!
# Files and directories

The few things that a program does with files, for any world that has files, and the plainest such world: a
tree of files and directories.

* `Files` — what can be done with files;
* `Path.steps`, `Path.lead`, `Path.parent` — the steps of a path, those to its directory, and the path of that;
* `FileTree` — a tree by the paths of what is in it; `at?`, `put`, `erase`;
* `FileTree.resolve?` — the place that a path leads to;
* `FileTree.read?`, `write?`, `makeDirectories?` — the operations on a tree.

Main statements: `at?_put_same`, `at?_put_other` (a tree is a map from places).
-/

namespace SynthControl

/-- What can be done with files by name; a name is a path. -/
class Files (m : Type → Type) where
  /-- Whether there is a file or a directory. -/
  isThere : String → m Bool
  /-- The bytes of a file. -/
  read : String → m (Option ByteArray)
  /-- Give a file its bytes, making it if needed; tells whether that was possible. -/
  write : String → ByteArray → m Bool
  /-- Make a directory and those it is in; tells whether it is there now. -/
  makeDirectories : String → m Bool

namespace Path

/-- The pieces of a text between slashes. -/
def pieces : List Char → List (List Char)
  | [] => [[]]
  | c :: r =>
    if c = '/' then [] :: pieces r
    else
      match pieces r with
      | p :: ps => (c :: p) :: ps
      | [] => [[c]]

/-- The steps of a path.  A step without a name stays where it is. -/
def steps (path : String) : List String := (pieces path.toList).map String.ofList

/-- A step that stays where it is. -/
def isIdle (step : String) : Bool := step == "" || step == "."

/-- Steps without those at the end that stay where they are. -/
def trimmed (names : List String) : List String := (names.reverse.dropWhile isIdle).reverse

/-- The steps in front of the last one that leads anywhere. -/
def lead (names : List String) : List String := trimmed (trimmed names).dropLast

/-- The path of the directory that a path leads into. -/
def parent (path : String) : String := "/".intercalate (lead (steps path))

/-- A path in a directory. -/
def join (directory name : String) : String :=
  if directory.isEmpty || directory.endsWith "/" then directory ++ name else directory ++ "/" ++ name

end Path

/-- What is at a place of a tree. -/
inductive Entry where
  /-- A file with its bytes. -/
  | file (bytes : ByteArray)
  | directory

/-- A tree of files and directories, by their places: the names on the way from the root. -/
structure FileTree where
  /-- Everything in the tree except the root. -/
  entries : List (List String × Entry) := []

namespace FileTree

/-- What is at a place; the root is a directory. -/
def at? (t : FileTree) (place : List String) : Option Entry :=
  if place.isEmpty then some .directory else t.entries.lookup place

/-- Put something at a place. -/
def put (place : List String) (e : Entry) (t : FileTree) : FileTree :=
  ⟨(place, e) :: t.entries.filter fun p => p.1 != place⟩

/-- Remove what is at a place. -/
def erase (place : List String) (t : FileTree) : FileTree :=
  ⟨t.entries.filter fun p => p.1 != place⟩

theorem at?_put_same {place : List String} (h : place ≠ []) (e : Entry) (t : FileTree) :
    (t.put place e).at? place = some e := by
  simp [at?, put, h]

theorem at?_put_other {p q : List String} (h : q ≠ p) (e : Entry) (t : FileTree) :
    (t.put p e).at? q = t.at? q := by
  have hf : ∀ es : List (List String × Entry),
      (es.filter fun x => x.1 != p).lookup q = es.lookup q := by
    intro es
    induction es with
    | nil => rfl
    | cons x xs ih =>
      obtain ⟨r, f⟩ := x
      by_cases hx : r = p
      · subst hx
        simp [ih, List.lookup_cons, beq_eq_false_iff_ne.2 h]
      · simp [hx, List.lookup_cons, ih]
  simp [at?, put, List.lookup_cons, beq_eq_false_iff_ne.2 h, hf]

/-- There is a directory at a place. -/
def isDirectory (t : FileTree) (place : List String) : Bool := t.at? place matches some .directory

/-- The place that some steps lead to from a place, if every step but the last starts from a directory. -/
def follow (t : FileTree) (place : List String) : List String → Option (List String)
  | [] => some place
  | name :: rest =>
    if !t.isDirectory place then none
    else if name = "" ∨ name = "." then t.follow place rest
    else if name = ".." then t.follow place.dropLast rest
    else t.follow (place ++ [name]) rest

/-- The place that a path leads to; nothing needs to be there yet. -/
def resolve? (t : FileTree) (path : String) : Option (List String) := t.follow [] (Path.steps path)

/-- What a path leads to. -/
def find? (t : FileTree) (path : String) : Option Entry := (t.resolve? path).bind t.at?

/-- The bytes of a file. -/
def read? (t : FileTree) (path : String) : Option ByteArray :=
  match t.find? path with
  | some (.file bytes) => some bytes
  | _ => none

/-- Give a file its bytes, making it in its directory if needed. -/
def write? (path : String) (bytes : ByteArray) (t : FileTree) : Option FileTree :=
  match t.resolve? path with
  | none => none
  | some place => if t.isDirectory place then none else some (t.put place (.file bytes))

/-- Make the directories that some steps lead through. -/
def makeSteps? (t : FileTree) (place : List String) : List String → Option FileTree
  | [] => some t
  | name :: rest =>
    if name = "" ∨ name = "." then t.makeSteps? place rest
    else if name = ".." then t.makeSteps? place.dropLast rest
    else
      let next := place ++ [name]
      match t.at? next with
      | some .directory => t.makeSteps? next rest
      | some (.file _) => none
      | none => (t.put next .directory).makeSteps? next rest

/-- Make a directory and those it is in. -/
def makeDirectories? (path : String) (t : FileTree) : Option FileTree := t.makeSteps? [] (Path.steps path)

end FileTree

/-- A change of a tree, as an operation that tells whether it was possible. -/
def FileTree.attempt (f : FileTree → Option FileTree) : StateM FileTree Bool := fun t =>
  match f t with
  | some t' => (true, t')
  | none => (false, t)

instance : Files (StateM FileTree) where
  isThere path := fun t => ((t.find? path).isSome, t)
  read path := fun t => (t.read? path, t)
  write path bytes := FileTree.attempt (FileTree.write? path bytes)
  makeDirectories path := FileTree.attempt (FileTree.makeDirectories? path)

end SynthControl
