import SynthControl.Proofs.Printing

/-!
# Sections that are written are read

* `IsKey`, `key?_key` — the keys without quotes;
* `statement?_assign`, `statement?_header` — **a line that is written is read**;
* `statements?_write` — so are sections;
* `perform_header`, `perform_assign`, `foldlM_sections` — what these lines add to a document;
* `WellNamed`, `parse?_write` — **the document that is written of sections holds these sections**;
* `isSome_write?`, `restrict` — which sections can be written, and sections with some of their keys.
-/

namespace SynthControl.Toml

/-! ### Values of all elements -/

section

variable {α β : Type} {f : α → Option β}

theorem mapM_cons_eq_some {x : α} {xs : List α} {ys : List β} (h : (x :: xs).mapM f = some ys) :
    ∃ y zs, f x = some y ∧ xs.mapM f = some zs ∧ ys = y :: zs := by
  rw [List.mapM_cons] at h
  obtain ⟨y, hy, h⟩ := Option.bind_eq_some_iff.1 h
  obtain ⟨zs, hzs, h⟩ := Option.bind_eq_some_iff.1 h
  exact ⟨y, zs, hy, hzs, (Option.some.inj h).symm⟩

/-- All elements have values together exactly if each of them has one. -/
theorem isSome_mapM {xs : List α} : (xs.mapM f).isSome ↔ ∀ x ∈ xs, (f x).isSome := by
  induction xs with
  | nil => simp
  | cons x xs ih =>
    rw [List.mapM_cons, List.forall_mem_cons, ← ih]
    cases f x <;> cases xs.mapM f <;> simp

end

/-! ### Lines and sections -/

/-- A key that is written without quotes. -/
structure IsKey (k : String) : Prop where
  ne_nil : k.toList ≠ []
  bare : ∀ c ∈ k.toList, isBare c = true

theorem isKey_iff {k : String} : IsKey k ↔ k.toList ≠ [] ∧ ∀ c ∈ k.toList, isBare c = true :=
  ⟨fun h => ⟨h.ne_nil, h.bare⟩, fun h => ⟨h.1, h.2⟩⟩

section

variable {k : String} {c : Char} {r : List Char}

/-- A key begins with one of its characters. -/
theorem IsKey.head (hk : IsKey k) : ∃ d ds, k.toList = d :: ds ∧ isBare d = true ∧ ∀ x ∈ ds, isBare x = true := by
  obtain ⟨d, ds, hlist⟩ := List.exists_cons_of_ne_nil hk.ne_nil
  have hbare := hk.bare
  rw [hlist, List.forall_mem_cons] at hbare
  exact ⟨d, ds, hlist, hbare⟩

/-- A character of a key is no blank. -/
theorem isBlank_of_isBare (hc : isBare c = true) : isBlank c = false := isBlank_of_kind hc (by decide) (by decide)

theorem key?_key (hk : IsKey k) (hc : isBare c = false) (r : List Char) :
    key? (k.toList ++ c :: r) = some (k, c :: r) := by
  obtain ⟨d, ds, hlist, hd, hds⟩ := hk.head
  have hkey : String.ofList (d :: ds) = k := by rw [← hlist, String.ofList_toList]
  rw [hlist, List.cons_append, key?, ofChar?_of_kind hd (by decide) (by decide)]
  dsimp only
  rw [if_pos hd, List.takeWhile_append_of_pos hds, List.dropWhile_append_of_pos hds,
    List.takeWhile_cons_of_neg (by rw [hc]; decide), List.dropWhile_cons_of_neg (by rw [hc]; decide),
    List.append_nil, hkey]

/-- A key alone is a path of one key; what follows it stands behind the blanks. -/
theorem keyPath?_key (hk : IsKey k) (hc : isBare c = false) (hpoint : ∀ r', skipBlanks (c :: r) ≠ '.' :: r') :
    keyPath? (k.toList ++ c :: r) = some (([], k), skipBlanks (c :: r)) := by
  have hskip : skipBlanks (k.toList ++ c :: r) = k.toList ++ c :: r := by
    obtain ⟨d, ds, hlist, hd, -⟩ := hk.head
    rw [hlist]
    exact skipBlanks_cons (isBlank_of_isBare hd) _
  show keys? (78 + 1) _ = _
  rw [keys?, hskip, key?_key hk hc]
  dsimp only
  split
  · next r' heq => exact absurd heq (hpoint r')
  · rfl

/-- **A line that is written is read.** -/
theorem statement?_assign {v : Node} {line : List Char} (hk : IsKey k) (hline : writeLine? (k, v) = some line)
    (r : List Char) : statement? (line ++ r) = some (.assign [] k v, r) := by
  obtain ⟨s, hs, rfl⟩ := Option.map_eq_some_iff.1 hline
  have htext : k.toList ++ " = ".toList ++ s ++ ['\n'] ++ r = k.toList ++ ' ' :: '=' :: ' ' :: (s ++ '\n' :: r) := by
    simp
  have hpath : keyPath? (k.toList ++ ' ' :: '=' :: ' ' :: (s ++ '\n' :: r)) =
      some (([], k), '=' :: ' ' :: (s ++ '\n' :: r)) := keyPath?_key hk (by decide) (fun r' h => by cases h)
  have hskip : skipBlanks (' ' :: (s ++ '\n' :: r)) = s ++ '\n' :: r := skipBlanks_write hs _
  have hvalue := value?_write hs r
  have hend : lineEnd? ('\n' :: r) = some r := rfl
  rw [htext]
  obtain ⟨d, ds, hlist, hd, -⟩ := hk.head
  rw [hlist, List.cons_append] at hpath ⊢
  rw [statement?]
  · simp only [hpath, mark?, hskip, hvalue, hend, if_true, Option.bind_eq_bind, Option.bind_some]
    rfl
  · intro r' hcons
    exact ne_of_kind hd (by decide) (List.cons.inj hcons).1
  · intro r' hcons
    exact ne_of_kind hd (by decide) (List.cons.inj hcons).1

/-- **A header that is written is read.** -/
theorem statement?_header (hk : IsKey k) (r : List Char) :
    statement? ('[' :: (k.toList ++ ']' :: '\n' :: r)) = some (.header [] k, r) := by
  have hpath : keyPath? (k.toList ++ ']' :: '\n' :: r) = some (([], k), ']' :: '\n' :: r) :=
    keyPath?_key hk (by decide) (fun r' h => by cases h)
  have hend : lineEnd? ('\n' :: r) = some r := rfl
  obtain ⟨d, ds, hlist, hd, -⟩ := hk.head
  rw [hlist, List.cons_append] at hpath ⊢
  rw [statement?]
  · simp only [hpath, mark?, hend, if_true, Option.bind_eq_bind, Option.bind_some]
    rfl
  · intro r' hcons
    exact ne_of_kind hd (by decide) (List.cons.inj hcons).1

/-- A statement in front of others. -/
theorem statements?_cons {x : Statement} {s r : List Char} (hc : isBlank c = false) (hcomment : c ≠ '#')
    (hfeed : c ≠ '\n') (hreturn : c ≠ '\r') (hx : statement? (c :: s) = some (x, r)) (hr : r.length < s.length + 1) :
    statements? (c :: s) = (statements? r).map (x :: ·) := by
  rw [statements?, skipBlanks_cons hc]
  dsimp only
  rw [if_neg (by simp [hcomment, hfeed, hreturn]), hx]
  dsimp only
  rw [if_pos (by simpa using hr)]

/-- An empty line is passed over. -/
theorem statements?_newline (r : List Char) : statements? ('\n' :: r) = statements? r := by
  have hskip : skipBlanks ('\n' :: r) = '\n' :: r := rfl
  have hend : lineEnd? ('\n' :: r) = some r := rfl
  rw [statements?, hskip]
  dsimp only
  rw [if_pos (by decide), hend]
  dsimp only
  rw [if_pos (by simp)]

/-- A line in front of other statements. -/
theorem statements?_line {v : Node} {line : List Char} (hk : IsKey k) (hline : writeLine? (k, v) = some line)
    (r : List Char) : statements? (line ++ r) = (statements? r).map (.assign [] k v :: ·) := by
  have hread := statement?_assign hk hline r
  obtain ⟨s, -, rfl⟩ := Option.map_eq_some_iff.1 hline
  obtain ⟨d, ds, hlist, hd, -⟩ := hk.head
  simp only [hlist, List.cons_append] at hread ⊢
  refine statements?_cons (isBlank_of_isBare hd) (ne_of_kind hd (by decide)) (ne_of_kind hd (by decide))
    (ne_of_kind hd (by decide)) hread ?_
  simp only [List.length_append]
  omega

/-- The statements that a section is written as. -/
def statementsOf (part : String × Entries) : List Statement :=
  .header [] part.1 :: part.2.map fun e => .assign [] e.1 e.2

/-- The lines of a section in front of other statements. -/
theorem statements?_lines {es : Entries} {lines : List (List Char)} (hkeys : ∀ e ∈ es, IsKey e.1)
    (hlines : es.mapM writeLine? = some lines) (r : List Char) :
    statements? (lines.flatten ++ r) =
      (statements? r).map ((es.map fun e => Statement.assign [] e.1 e.2) ++ ·) := by
  induction es generalizing lines with
  | nil =>
    rw [List.mapM_nil] at hlines
    obtain rfl := Option.some.inj hlines
    simp
  | cons e es ih =>
    obtain ⟨line, rest, hline, hrest, rfl⟩ := mapM_cons_eq_some hlines
    rw [List.forall_mem_cons] at hkeys
    rw [List.flatten_cons, List.append_assoc, statements?_line hkeys.1 hline, ih hkeys.2 hrest, Option.map_map]
    rfl

/-- **A section that is written is read**, in front of other statements. -/
theorem statements?_section {part : String × Entries} {s : List Char} (hname : IsKey part.1)
    (hkeys : ∀ e ∈ part.2, IsKey e.1) (hs : writeSection? part = some s) (r : List Char) :
    statements? (s ++ r) = (statements? r).map (statementsOf part ++ ·) := by
  obtain ⟨lines, hlines, rfl⟩ := Option.map_eq_some_iff.1 hs
  have htext : '[' :: part.1.toList ++ [']', '\n'] ++ lines.flatten ++ r =
      '[' :: (part.1.toList ++ ']' :: '\n' :: (lines.flatten ++ r)) := by simp
  have hlength : (lines.flatten ++ r).length < (part.1.toList ++ ']' :: '\n' :: (lines.flatten ++ r)).length + 1 := by
    rw [List.length_append, List.length_append, List.length_cons, List.length_cons, List.length_append]
    omega
  rw [htext, statements?_cons (by decide) (by decide) (by decide) (by decide) (statement?_header hname _) hlength,
    statements?_lines hkeys hlines, Option.map_map]
  rfl

/-- Every name and every key is one that is written without quotes. -/
def HasKeys (parts : List (String × Entries)) : Prop := ∀ part ∈ parts, IsKey part.1 ∧ ∀ e ∈ part.2, IsKey e.1

/-- **Sections that are written are read**, with the empty lines between them passed over. -/
theorem statements?_write {parts : List (String × Entries)} {s : List Char} (hkeys : HasKeys parts)
    (hs : write? parts = some s) : statements? s = some (parts.flatMap statementsOf) := by
  obtain ⟨texts, htexts, rfl⟩ := Option.map_eq_some_iff.1 hs
  clear hs
  have hnil : statements? [] = some [] := by
    rw [statements?]
    rfl
  induction parts generalizing texts with
  | nil =>
    rw [List.mapM_nil] at htexts
    obtain rfl := Option.some.inj htexts
    exact hnil
  | cons part parts ih =>
    obtain ⟨text, rest, htext, hrest, rfl⟩ := mapM_cons_eq_some htexts
    rw [HasKeys, List.forall_mem_cons] at hkeys
    have hread := ih hkeys.2 rest hrest
    cases parts with
    | nil =>
      -- the last section, behind which nothing stands
      rw [List.mapM_nil] at hrest
      obtain rfl := Option.some.inj hrest
      show statements? (text ++ []) = _
      rw [statements?_section hkeys.1.1 hkeys.1.2 htext, hnil]
      rfl
    | cons next parts =>
      obtain ⟨line, lines, -, -, rfl⟩ := mapM_cons_eq_some hrest
      have htext' : List.intercalate ['\n'] (text :: line :: lines) =
          text ++ '\n' :: List.intercalate ['\n'] (line :: lines) := by simp [List.intercalate]
      rw [htext', statements?_section hkeys.1.1 hkeys.1.2 htext, statements?_newline, hread]
      rfl

end

/-! ### The tree of sections -/

/-- The keys that have a node. -/
def Entries.keys (es : Entries) : List String := es.map Prod.fst

namespace Entries

variable {k : String} {v w : Node} {es : Entries}

theorem lookup_of_notMem (h : k ∉ es.keys) : es.lookup k = none := by
  rw [List.lookup_eq_none_iff]
  intro e he
  rw [bne_iff_ne]
  rintro rfl
  exact h (List.mem_map_of_mem he)

/-- Where all keys are different, none stands before its place. -/
theorem notMem_before {more : Entries} {e : String × Node} (h : (es ++ e :: more).keys.Nodup) : e.1 ∉ es.keys := by
  intro hmem
  rw [keys, List.map_append, List.nodup_append] at h
  exact h.2.2 e.1 hmem e.1 List.mem_cons_self rfl

/-- A new key is put behind the others. -/
theorem set_of_notMem (h : k ∉ es.keys) : set k v es = es ++ [(k, v)] := by
  induction es with
  | nil => rfl
  | cons e es ih =>
    rw [keys, List.map_cons, List.mem_cons, not_or] at h
    rw [set, if_neg h.1, ih h.2, List.cons_append]

theorem lookup_last (h : k ∉ es.keys) : (es ++ [(k, v)]).lookup k = some v := by
  rw [← set_of_notMem h, lookup_set_same]

/-- A key is looked up in its place, if it has only one. -/
theorem lookup_of_mem (hes : es.keys.Nodup) {e : String × Node} (he : e ∈ es) :
    es.lookup e.1 = some e.2 := by
  obtain ⟨before, after, rfl⟩ := List.append_of_mem he
  refine List.lookup_eq_some_iff.2 ⟨before, after, rfl, fun p hp => ?_⟩
  rw [bne_iff_ne]
  intro heq
  exact notMem_before hes (heq ▸ List.mem_map_of_mem hp)

theorem lookup_filter (hes : es.keys.Nodup) (kept : String → Bool) {e : String × Node} (he : e ∈ es) :
    (es.filter fun e => kept e.1).lookup e.1 = if kept e.1 then some e.2 else none := by
  split
  · next hkept =>
    exact lookup_of_mem (hes.sublist (List.filter_sublist.map _)) (List.mem_filter.2 ⟨he, hkept⟩)
  · next hkept =>
    refine lookup_of_notMem fun hmem => ?_
    obtain ⟨e', he', heq⟩ := List.mem_map.1 hmem
    rw [← heq] at hkept
    exact hkept (List.mem_filter.1 he').2

theorem set_last (h : k ∉ es.keys) : set k w (es ++ [(k, v)]) = es ++ [(k, w)] := by
  induction es with
  | nil => simp [set]
  | cons e es ih =>
    rw [keys, List.map_cons, List.mem_cons, not_or] at h
    rw [List.cons_append, set, if_neg h.1, ih h.2, List.cons_append]

end Entries

section

variable {name : String} {root es : Entries} {here : List String}

/-- The section of a new header is the last one. -/
theorem perform_header (h : name ∉ root.keys) :
    Draft.perform ⟨root, here⟩ (.header [] name) = some ⟨root ++ [(name, .table .header [])], [name]⟩ := by
  rw [Draft.perform, Entries.openTable, Entries.walk]
  dsimp only
  rw [Entries.lookup_of_notMem h]
  dsimp only
  rw [Entries.set_of_notMem h]
  rfl

/-- A key with its value is put behind the others of the last section. -/
theorem perform_assign {k : String} {v : Node} (hname : name ∉ root.keys) (hk : k ∉ es.keys) :
    Draft.perform ⟨root ++ [(name, .table .header es)], [name]⟩ (.assign [] k v) =
      some ⟨root ++ [(name, .table .header (es ++ [(k, v)]))], [name]⟩ := by
  have hadd : Entries.assign [] k v es = some (es ++ [(k, v)]) := by
    rw [Entries.assign, Entries.walk, if_neg (by decide), Entries.lookup_of_notMem hk, Entries.set_of_notMem hk]
    rfl
  rw [Draft.perform, Entries.walk, Entries.lookup_last hname]
  dsimp only
  rw [if_neg (by decide), Entries.walk, hadd, Option.map_some, Option.map_some, Entries.set_last hname]

/-- The keys of a section, one after another. -/
theorem foldlM_assign (hname : name ∉ root.keys) (es more : Entries) (h : (es ++ more).keys.Nodup) :
    (more.map fun e => Statement.assign [] e.1 e.2).foldlM Draft.perform ⟨root ++ [(name, .table .header es)], [name]⟩ =
      some ⟨root ++ [(name, .table .header (es ++ more))], [name]⟩ := by
  induction more generalizing es with
  | nil =>
    rw [List.append_nil]
    rfl
  | cons e more ih =>
    have hcons : es ++ e :: more = es ++ [e] ++ more := by simp
    rw [List.map_cons, List.foldlM_cons, perform_assign hname (Entries.notMem_before h)]
    rw [hcons] at h ⊢
    exact ih _ h

end

/-- Sections as the tables of a document. -/
def documentOf (parts : List (String × Entries)) : Entries := parts.map fun p => (p.1, .table .header p.2)

theorem keys_documentOf (parts : List (String × Entries)) : (documentOf parts).keys = parts.map Prod.fst := by
  rw [Entries.keys, documentOf, List.map_map]
  rfl

/-- Sections, one after another. -/
theorem foldlM_sections {d : Draft} (parts : List (String × Entries)) (hnames : (d.root ++ documentOf parts).keys.Nodup)
    (hkeys : ∀ part ∈ parts, part.2.keys.Nodup) :
    ((parts.flatMap statementsOf).foldlM Draft.perform d).map Draft.root = some (d.root ++ documentOf parts) := by
  induction parts generalizing d with
  | nil =>
    show some d.root = _
    rw [documentOf, List.map_nil, List.append_nil]
  | cons part parts ih =>
    rw [List.forall_mem_cons] at hkeys
    have hname : part.1 ∉ d.root.keys := Entries.notMem_before hnames
    have hcons : d.root ++ documentOf (part :: parts) =
        d.root ++ [(part.1, .table .header part.2)] ++ documentOf parts := by simp [documentOf]
    rw [List.flatMap_cons, statementsOf, List.cons_append, List.foldlM_cons, perform_header hname, Option.bind_eq_bind,
      Option.bind_some, List.foldlM_append, foldlM_assign hname [] part.2 hkeys.1, Option.bind_eq_bind,
      Option.bind_some]
    rw [hcons] at hnames ⊢
    exact ih hnames hkeys.2

/-! ### Documents -/

/-- Sections whose names and keys are written without quotes, and are all different. -/
structure WellNamed (parts : List (String × Entries)) : Prop where
  hasKeys : HasKeys parts
  names : (parts.map Prod.fst).Nodup
  keys : ∀ part ∈ parts, part.2.keys.Nodup

/-- A document begins with a bracket, and not with a mark of the byte order. -/
theorem skipOrderMark_write {parts : List (String × Entries)} {s : List Char} (hs : write? parts = some s) :
    skipOrderMark s = s := by
  obtain ⟨texts, htexts, rfl⟩ := Option.map_eq_some_iff.1 hs
  cases parts with
  | nil =>
    rw [List.mapM_nil] at htexts
    obtain rfl := Option.some.inj htexts
    rfl
  | cons part parts =>
    obtain ⟨text, rest, htext, -, rfl⟩ := mapM_cons_eq_some htexts
    obtain ⟨lines, -, rfl⟩ := Option.map_eq_some_iff.1 htext
    cases rest <;> rfl

/-- **The document that is written of sections holds these sections**. -/
theorem parse?_write {parts : List (String × Entries)} {s : List Char} (h : WellNamed parts)
    (hs : write? parts = some s) : parse? s = some (documentOf parts) := by
  rw [parse?, skipOrderMark_write hs, statements?_write h.hasKeys hs, Option.bind_some, build?]
  refine foldlM_sections parts ?_ h.keys
  rw [List.nil_append, keys_documentOf]
  exact h.names

/-! ### Documents that can be written -/

theorem isSome_write?_integer {n : Int} : (Node.integer n).write?.isSome ↔ isLong n = true := by
  rw [Option.isSome_iff_ne_none, ne_eq, Node.write?_integer_eq_none_iff, Bool.not_eq_false]

/-- Sections can be written exactly if each of their values can. -/
theorem isSome_write? {parts : List (String × Entries)} :
    (write? parts).isSome ↔ ∀ part ∈ parts, ∀ e ∈ part.2, e.2.write?.isSome := by
  simp only [write?, writeSection?, writeLine?, Option.isSome_map, isSome_mapM]

/-- Some of the keys of sections. -/
def restrict (kept : String → String → Bool) (parts : List (String × Entries)) : List (String × Entries) :=
  parts.map fun s => (s.1, s.2.filter fun e => kept s.1 e.1)

theorem restrict_all (parts : List (String × Entries)) : restrict (fun _ _ => true) parts = parts := by
  simp [restrict]

theorem WellNamed.restrict {parts : List (String × Entries)} (h : WellNamed parts) (kept : String → String → Bool) :
    WellNamed (restrict kept parts) where
  hasKeys := by
    intro part hpart
    obtain ⟨s, hs, rfl⟩ := List.mem_map.1 hpart
    exact ⟨(h.hasKeys s hs).1, fun e he => (h.hasKeys s hs).2 e (List.mem_of_mem_filter he)⟩
  names := by
    rw [Toml.restrict, List.map_map]
    exact h.names
  keys := by
    intro part hpart
    obtain ⟨s, hs, rfl⟩ := List.mem_map.1 hpart
    exact (h.keys s hs).sublist (List.filter_sublist.map _)

end SynthControl.Toml
