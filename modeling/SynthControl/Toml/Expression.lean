import SynthControl.Toml.Moment
import SynthControl.Toml.Number

/-!
# Keys and values of TOML

* `key?`, `keyPath?` — a key, and keys with points between them;
* `elements?` — the elements of an array, for a reader of one element;
* `members?` — what stands between braces, for a reader of one value;
* `value?` — a value.

A path of keys has at most `longestPath` keys, and arrays and tables between braces stand in each other at
most `deepestValue` deep.
-/

namespace SynthControl.Toml

/-- A character of a key without quotes. -/
def isBare (c : Char) : Bool := c.isAlphanum || c == '-' || c == '_'

/-- A key. -/
def key? : Reader String
  | [] => none
  | c :: r =>
    match Quote.ofChar? c with
    | some q => (line? q r).map fun p => (String.ofList p.1, p.2)
    | none =>
      if isBare c then some (String.ofList (c :: r.takeWhile isBare), r.dropWhile isBare) else none

/-- Keys with points between them, and blanks around each: the keys before the last one, and the last one.
`n` bounds the number of keys. -/
def keys? : Nat → List Char → Option ((List String × String) × List Char)
  | 0, _ => none
  | n + 1, s =>
    match key? (skipBlanks s) with
    | none => none
    | some (k, r) =>
      match skipBlanks r with
      | '.' :: r => (keys? n r).map fun p => ((k :: p.1.1, p.1.2), p.2)
      | r => some (([], k), r)

/-- The most keys of a path. -/
def longestPath : Nat := 79

/-- A path of keys: the keys before the last one, and the last one. -/
def keyPath? : Reader (List String × String) := keys? longestPath

/-! ### Arrays and tables between braces -/

/-- The elements of an array behind its opening bracket.  A comma may follow the last one. -/
def elements? (item : Reader Node) (s : List Char) : Option (List Node × List Char) :=
  match skipLayout false s with
  | [] => none
  | c :: r =>
    if c = ']' then some ([], r)
    else
      match item (c :: r) with
      | none => none
      | some (v, r) =>
        match skipLayout false r with
        | ']' :: r => some ([v], r)
        | ',' :: r =>
          if r.length < s.length then (elements? item r).map fun p => (v :: p.1, p.2) else none
        | _ => none
termination_by s.length

/-- A key with its value between braces, and the blanks behind it. -/
def member? (item : Reader Node) (s : List Char) : Option ((List String × String × Node) × List Char) := do
  let ((path, k), r) ← keyPath? s
  let (v, r) ← item (skipBlanks (← mark? '=' r))
  return ((path, k, v), skipBlanks r)

/-- What stands between braces, behind the opening one, with what stands there already.  No comma may follow
the last key. -/
def members? (item : Reader Node) (es : Entries) (s : List Char) : Option (Entries × List Char) :=
  match member? item s with
  | none => none
  | some ((path, k, v), r) =>
    match es.assign path k v with
    | none => none
    | some es =>
      match r with
      | '}' :: r => some (es, r)
      | ',' :: r => if r.length < s.length then members? item es r else none
      | _ => none
termination_by s.length

/-- A table between braces, behind the opening one. -/
def braces? (item : Reader Node) (s : List Char) : Option (Entries × List Char) :=
  match skipBlanks s with
  | '}' :: r => some ([], r)
  | r => members? item [] r

/-! ### Values -/

/-- A value that holds no other values. -/
def scalar? (s : List Char) : Option (Node × List Char) :=
  match s with
  | 't' :: 'r' :: 'u' :: 'e' :: r => some (.boolean true, r)
  | 'f' :: 'a' :: 'l' :: 's' :: 'e' :: r => some (.boolean false, r)
  | _ => ((moment? s).map fun p => (.moment p.1, p.2)).or (number? s)

/-- A value in which others stand at most `depth` deep. -/
def valueTo? : Nat → Reader Node
  | _, [] => none
  | 0, c :: r =>
    match Quote.ofChar? c with
    | some q => (quoted? q r).map fun p => (.text (String.ofList p.1), p.2)
    | none => if c = '[' ∨ c = '{' then none else scalar? (c :: r)
  | depth + 1, c :: r =>
    match Quote.ofChar? c with
    | some q => (quoted? q r).map fun p => (.text (String.ofList p.1), p.2)
    | none =>
      if c = '[' then (elements? (valueTo? depth) r).map fun p => (.array p.1, p.2)
      else if c = '{' then (braces? (valueTo? depth) r).map fun p => (.table .braces p.1, p.2)
      else scalar? (c :: r)

/-- The most arrays and tables between braces that stand in each other. -/
def deepestValue : Nat := 79

/-- A value. -/
def value? : Reader Node := valueTo? deepestValue

end SynthControl.Toml
