import Mathlib.Data.List.Infix
import SynthControl.Sine.Document

/-!
# Sections between tags

A section is looked for in the bytes that encode a document, and cut out of it by the offsets found there.  The
opening tag is the first one, and the closing tag is the first one behind that, whatever else the document holds:
parts of tags, repeated, nested and reversed ones.

* `Text.splitFirst?_eq_some_iff`, `Text.splitFirst?_eq_none_iff` — **a cut at the first occurrence of a mark**;
* `Text.bytes`, `Text.find?` — the bytes that encode a text, and the offset at which bytes first occur in others;
* `Text.bytes_prefix_iff`, `Text.find?_bytes` — **the bytes of a mark occur only where the mark does**, so that no
  offset falls into a character;
* `Sine.sectionStart?`, `Sine.sectionOffsets?` — the offsets at which a section is cut out of a document;
* `Sine.section?_cuts` — **what a section is, when there is none, and where its offsets lie**.
-/

namespace SynthControl

namespace Text

/-! ### The first occurrence of a mark -/

theorem prefix_iff_after? {lead s : List Char} : lead <+: s ↔ ∃ rest, after? lead s = some rest := by
  simp only [List.IsPrefix, after?_eq_some_iff, eq_comm (a := s)]

/-- A cut leaves the least possible in front of the mark. -/
theorem length_le_of_splitFirst? {mark s a b : List Char} (h : splitFirst? mark s = some (a, b)) :
    ∀ a', a' ++ mark <+: s → a.length ≤ a'.length := by
  induction s generalizing a with
  | nil =>
    have ha := splitFirst?_eq_some h
    rw [List.append_assoc] at ha
    rw [(List.append_eq_nil_iff.mp ha.symm).1]
    exact fun _ _ => Nat.zero_le _
  | cons c r ih =>
    rw [splitFirst?] at h
    split at h
    · next rest hrest =>
      obtain ⟨rfl, -⟩ : [] = a ∧ rest = b := by simpa using h
      exact fun _ _ => Nat.zero_le _
    · next hrest =>
      obtain ⟨⟨p, q⟩, hp, hab⟩ := Option.map_eq_some_iff.mp h
      obtain ⟨rfl, rfl⟩ : c :: p = a ∧ q = b := by simpa using hab
      intro a' ha'
      cases a' with
      | nil =>
        -- the mark stands at the beginning, and was not found there
        obtain ⟨rest, hmark⟩ := prefix_iff_after?.mp ha'
        rw [List.nil_append, hrest] at hmark
        cases hmark
      | cons c' a' =>
        rw [List.cons_append, List.cons_prefix_cons] at ha'
        exact Nat.succ_le_succ (ih hp a' ha'.2)

/-- **A text is not cut exactly when the mark does not occur in it.** -/
theorem splitFirst?_eq_none_iff {mark s : List Char} : splitFirst? mark s = none ↔ ¬mark <:+: s := by
  induction s with
  | nil =>
    rw [splitFirst?, List.infix_nil]
    cases mark <;> simp
  | cons c r ih =>
    rw [splitFirst?, List.infix_cons_iff, prefix_iff_after?]
    split
    · next rest hrest => simp [hrest]
    · next hrest => simp [hrest, ih]

/-- **A text is cut in front of and behind the first occurrence of the mark.** -/
theorem splitFirst?_eq_some_iff {mark s a b : List Char} :
    splitFirst? mark s = some (a, b) ↔ s = a ++ mark ++ b ∧ ∀ a', a' ++ mark <+: s → a.length ≤ a'.length := by
  refine ⟨fun h => ⟨splitFirst?_eq_some h, length_le_of_splitFirst? h⟩, fun ⟨hs, hfirst⟩ => ?_⟩
  have hsome : splitFirst? mark s ≠ none := fun h => splitFirst?_eq_none_iff.mp h ⟨a, b, hs.symm⟩
  obtain ⟨⟨p, q⟩, hp⟩ := Option.ne_none_iff_exists'.mp hsome
  have hpq := splitFirst?_eq_some hp
  have hlength : a.length = p.length :=
    Nat.le_antisymm (hfirst p ⟨q, hpq.symm⟩) (length_le_of_splitFirst? hp a ⟨b, hs.symm⟩)
  rw [hs, List.append_assoc, List.append_assoc] at hpq
  obtain ⟨rfl, hrest⟩ := List.append_inj hpq hlength
  rw [hp, List.append_cancel_left hrest]

/-! ### Bytes -/

/-- The bytes that encode a text. -/
def bytes (s : List Char) : List UInt8 := s.flatMap String.utf8EncodeChar

/-- The offset at which a mark first occurs in some bytes. -/
def find? (mark : List UInt8) : List UInt8 → Option Nat
  | [] => if mark.isEmpty then some 0 else none
  | b :: bs => if mark.isPrefixOf (b :: bs) then some 0 else (find? mark bs).map (· + 1)

theorem bytes_cons (c : Char) (s : List Char) : bytes (c :: s) = String.utf8EncodeChar c ++ bytes s := rfl

@[simp] theorem bytes_append (s t : List Char) : bytes (s ++ t) = bytes s ++ bytes t := List.flatMap_append

theorem utf8Encode_eq_bytes (s : List Char) : s.utf8Encode = (bytes s).toByteArray := rfl

/-- The bytes of a text begin with those of another one exactly when the text begins with the other. -/
theorem bytes_prefix_iff {m s : List Char} : bytes m <+: bytes s ↔ m <+: s := by
  refine ⟨fun ⟨rest, hrest⟩ => ?_, fun ⟨rest, hrest⟩ => ⟨bytes rest, by rw [← hrest, bytes_append]⟩⟩
  apply List.isPrefix_of_utf8Encode_append_eq_utf8Encode rest.toByteArray
  rw [utf8Encode_eq_bytes, utf8Encode_eq_bytes, ← hrest, List.toByteArray_append]

/-- A character is encoded by a first byte and others that are no first bytes. -/
theorem utf8EncodeChar_eq (c : Char) :
    ∃ b more, String.utf8EncodeChar c = b :: more ∧ b.IsUTF8FirstByte ∧ ∀ x ∈ more, ¬x.IsUTF8FirstByte := by
  have hfirst (i : Nat) (hi : i < (String.utf8EncodeChar c).length) :
      (String.utf8EncodeChar c)[i].IsUTF8FirstByte ↔ i = 0 := UInt8.isUTF8FirstByte_getElem_utf8EncodeChar
  cases hc : String.utf8EncodeChar c with
  | nil => exact absurd hc String.utf8EncodeChar_ne_nil
  | cons b more =>
    simp only [hc] at hfirst
    refine ⟨b, more, rfl, (hfirst 0 (by simp)).mpr rfl, fun x hx => ?_⟩
    obtain ⟨i, hi, rfl⟩ := List.getElem_of_mem hx
    exact fun h => absurd ((hfirst (i + 1) (by simpa using hi)).mp h) (by omega)

/-- Bytes other than the first one of a mark are passed over. -/
theorem find?_append {m : UInt8} {front : List UInt8} (hfront : ∀ x ∈ front, x ≠ m) (mark bs : List UInt8) :
    find? (m :: mark) (front ++ bs) = (find? (m :: mark) bs).map (· + front.length) := by
  induction front with
  | nil => simp
  | cons x front ih =>
    have hx : m ≠ x := fun h => hfront x List.mem_cons_self h.symm
    rw [List.cons_append, find?, if_neg (by simp [List.isPrefixOf, hx]),
      ih fun y hy => hfront y (List.mem_cons_of_mem _ hy), Option.map_map]
    rfl

/-- **The bytes of a mark are found where the mark is**, and never inside a character. -/
theorem find?_bytes {mark : List Char} (hmark : mark ≠ []) (s : List Char) :
    find? (bytes mark) (bytes s) = (splitFirst? mark s).map fun p => (bytes p.1).length := by
  obtain ⟨b, ms, hb, hbfirst⟩ : ∃ b ms, bytes mark = b :: ms ∧ b.IsUTF8FirstByte := by
    cases mark with
    | nil => exact absurd rfl hmark
    | cons c mark =>
      obtain ⟨b, more, hc, hbfirst, -⟩ := utf8EncodeChar_eq c
      exact ⟨b, more ++ bytes mark, by rw [bytes_cons, hc, List.cons_append], hbfirst⟩
  induction s with
  | nil =>
    cases mark with
    | nil => exact absurd rfl hmark
    | cons c mark => rw [hb]; rfl
  | cons c r ih =>
    obtain ⟨x, more, hc, -, hmore⟩ := utf8EncodeChar_eq c
    have hcons : bytes (c :: r) = x :: (more ++ bytes r) := by rw [bytes_cons, hc, List.cons_append]
    rw [splitFirst?, hcons, find?, ← hcons]
    split
    · next hfound =>
      obtain ⟨rest, hrest⟩ := prefix_iff_after?.mp (bytes_prefix_iff.mp (List.isPrefixOf_iff_prefix.mp hfound))
      rw [hrest]
      rfl
    · next hfound =>
      have hnone : after? mark (c :: r) = none := by
        rw [Option.eq_none_iff_forall_not_mem]
        intro rest hrest
        have hprefix : mark <+: c :: r := prefix_iff_after?.mpr ⟨rest, hrest⟩
        exact hfound (List.isPrefixOf_iff_prefix.mpr (bytes_prefix_iff.mpr hprefix))
      -- the first byte of the mark is none of those inside the character
      rw [hnone, hb, find?_append fun y hy h => hmore y hy (h ▸ hbfirst), ← hb, ih, Option.map_map, Option.map_map,
        Option.map_map]
      congr 1
      funext p
      simp only [Function.comp, bytes_cons, hc, List.length_append, List.length_cons]
      omega

end Text

namespace Sine

open Text

/-! ### The offsets of a section -/

/-- The offset behind the first opening tag of a section. -/
def sectionStart? (document name : List Char) : Option Nat :=
  (find? (bytes (openTag name)) (bytes document)).map (· + (bytes (openTag name)).length)

/-- The offsets between which a section lies: behind the first opening tag, and in front of the first closing tag
that is found from there on. -/
def sectionOffsets? (document name : List Char) : Option (Nat × Nat) :=
  match sectionStart? document name with
  | none => none
  | some start =>
    (find? (bytes (closeTag name)) ((bytes document).drop start)).map fun offset => (start, offset + start)

theorem openTag_ne_nil (name : List Char) : openTag name ≠ [] := List.cons_ne_nil _ _

theorem closeTag_ne_nil (name : List Char) : closeTag name ≠ [] := List.cons_ne_nil _ _

/-- The offset behind a part of a document lies between two characters of it. -/
theorem isValid_length_bytes (p q : List Char) :
    (⟨(bytes p).length⟩ : String.Pos.Raw).IsValid (String.ofList (p ++ q)) := by
  rw [String.Pos.Raw.isValid_iff_exists_append]
  refine ⟨String.ofList p, String.ofList q, String.ofList_append, ?_⟩
  rw [String.Pos.Raw.ext_iff, String.byteIdx_rawEndPos, ← String.size_toByteArray, String.toByteArray_ofList,
    utf8Encode_eq_bytes, List.size_toByteArray]

theorem sectionStart?_eq (document name : List Char) :
    sectionStart? document name =
      (splitFirst? (openTag name) document).map fun p => (bytes (p.1 ++ openTag name)).length := by
  rw [sectionStart?, find?_bytes (openTag_ne_nil name), Option.map_map]
  congr 1
  funext p
  rw [bytes_append, List.length_append]
  rfl

/-- The offsets are those of the cuts behind the opening tag and in front of the closing tag. -/
theorem sectionOffsets?_eq (document name : List Char) :
    sectionOffsets? document name =
      match splitFirst? (openTag name) document with
      | none => none
      | some (before, rest) => (splitFirst? (closeTag name) rest).map fun p =>
          ((bytes (before ++ openTag name)).length, (bytes (before ++ openTag name ++ p.1)).length) := by
  rw [sectionOffsets?, sectionStart?_eq]
  cases hopen : splitFirst? (openTag name) document with
  | none => rfl
  | some cut =>
    obtain ⟨before, rest⟩ := cut
    have hrest : (bytes document).drop (bytes (before ++ openTag name)).length = bytes rest := by
      rw [splitFirst?_eq_some hopen, bytes_append _ rest, List.drop_left]
    simp only [Option.map_some, hrest, find?_bytes (closeTag_ne_nil name), Option.map_map]
    congr 1
    funext p
    rw [bytes_append (before ++ openTag name), List.length_append, Nat.add_comm]
    rfl

/-- There is no section without an opening tag, or without a closing tag behind the first one. -/
theorem section?_eq_none_iff {document name : List Char} : section? document name = none ↔
      ¬openTag name <:+: document ∨
        ∃ before rest, splitFirst? (openTag name) document = some (before, rest) ∧ ¬closeTag name <:+: rest := by
  rw [section?, ← splitFirst?_eq_none_iff]
  cases hopen : splitFirst? (openTag name) document with
  | none => simp
  | some cut =>
    obtain ⟨before, rest⟩ := cut
    simp [← splitFirst?_eq_none_iff]

/-- A section lies between two cuts. -/
theorem section?_eq_some_iff {document name body : List Char} : section? document name = some body ↔
      ∃ before rest behind, splitFirst? (openTag name) document = some (before, rest) ∧
        splitFirst? (closeTag name) rest = some (body, behind) := by
  rw [section?]
  cases hopen : splitFirst? (openTag name) document with
  | none => simp
  | some cut =>
    obtain ⟨before, rest⟩ := cut
    simp

/-- The bytes of a part of a text, cut out by its offsets. -/
theorem slice_bytes (p b q : List Char) :
    ((bytes (p ++ b ++ q)).drop (bytes p).length).take ((bytes (p ++ b)).length - (bytes p).length) = bytes b := by
  rw [List.append_assoc, bytes_append p, bytes_append p, List.drop_left, bytes_append b, List.length_append,
    Nat.add_sub_cancel_left, List.take_left]

/-- The offsets of a section are those of its body in the document. -/
theorem sectionOffsets?_eq_some {document name : List Char} {start stop : Nat}
    (h : sectionOffsets? document name = some (start, stop)) :
    ∃ lead body behind, document = lead ++ body ++ behind ∧ section? document name = some body ∧
      start = (bytes lead).length ∧ stop = (bytes (lead ++ body)).length := by
  rw [sectionOffsets?_eq] at h
  split at h
  · cases h
  · next before rest hopen =>
    obtain ⟨⟨body, behind⟩, hclose, hoffsets⟩ := Option.map_eq_some_iff.mp h
    obtain ⟨rfl, rfl⟩ := Prod.mk.inj hoffsets
    have hbody := section?_eq_some_iff.mpr ⟨before, rest, behind, hopen, hclose⟩
    refine ⟨before ++ openTag name, body, closeTag name ++ behind, ?_, hbody, rfl, rfl⟩
    rw [splitFirst?_eq_some hopen, splitFirst?_eq_some hclose]
    simp only [List.append_assoc]

/-- **What a section is, when there is none, and where its offsets lie.**  It is the shortest text between the opening
tag that leaves the least in front of it and a closing tag; there is none if there is no opening tag, or no closing tag
behind the first one.  The offset behind the opening tag and those of the section lie between characters, and the bytes
between those of the section are the bytes of its text. -/
theorem section?_cuts (document name : List Char) :
    (∀ body, section? document name = some body ↔
      ∃ before behind, document = before ++ openTag name ++ body ++ closeTag name ++ behind ∧
        (∀ before', before' ++ openTag name <+: document → before.length ≤ before'.length) ∧
        ∀ body', before ++ openTag name ++ body' ++ closeTag name <+: document → body.length ≤ body'.length) ∧
    (section? document name = none ↔
      ¬openTag name <:+: document ∨
        ∃ before rest, document = before ++ openTag name ++ rest ∧
          (∀ before', before' ++ openTag name <+: document → before.length ≤ before'.length) ∧
          ¬closeTag name <:+: rest) ∧
    (∀ start, sectionStart? document name = some start →
      (⟨start⟩ : String.Pos.Raw).IsValid (String.ofList document)) ∧
    (sectionOffsets? document name = none ↔ section? document name = none) ∧
    ∀ start stop, sectionOffsets? document name = some (start, stop) →
      start ≤ stop ∧ (⟨start⟩ : String.Pos.Raw).IsValid (String.ofList document) ∧
        (⟨stop⟩ : String.Pos.Raw).IsValid (String.ofList document) ∧
        ∃ body, section? document name = some body ∧
          ((bytes document).drop start).take (stop - start) = bytes body := by
  refine ⟨fun body => ?_, ?_, fun start hstart => ?_, ?_, fun start stop hoffsets => ?_⟩
  · simp only [section?_eq_some_iff, splitFirst?_eq_some_iff]
    constructor
    · rintro ⟨before, rest, behind, ⟨rfl, hbefore⟩, rfl, hbody⟩
      refine ⟨before, behind, by simp, hbefore, fun body' h => hbody body' ?_⟩
      simpa [List.append_assoc] using h
    · rintro ⟨before, behind, rfl, hbefore, hbody⟩
      refine ⟨before, body ++ closeTag name ++ behind, behind, ⟨by simp, hbefore⟩, rfl, fun body' h => hbody body' ?_⟩
      simpa [List.append_assoc] using h
  · simp only [section?_eq_none_iff, splitFirst?_eq_some_iff, and_assoc]
  · rw [sectionStart?_eq] at hstart
    obtain ⟨⟨before, rest⟩, hopen, rfl⟩ := Option.map_eq_some_iff.mp hstart
    rw [splitFirst?_eq_some hopen]
    exact isValid_length_bytes _ _
  · rw [sectionOffsets?_eq, section?]
    cases splitFirst? (openTag name) document <;> simp
  · obtain ⟨lead, body, behind, hdocument, hbody, rfl, rfl⟩ := sectionOffsets?_eq_some hoffsets
    refine ⟨?_, ?_, ?_, body, hbody, ?_⟩
    · rw [bytes_append lead, List.length_append]
      exact Nat.le_add_right _ _
    · rw [hdocument, List.append_assoc]
      exact isValid_length_bytes _ _
    · rw [hdocument]
      exact isValid_length_bytes _ _
    · rw [hdocument]
      exact slice_bytes lead body behind

/-- Parts of tags, nested ones and a closing tag that comes too early; a character may take several bytes. -/
example : section? "</a>é<a<a>ü<a></a></a>".toList "a".toList = some "ü<a>".toList ∧
    sectionOffsets? "</a>é<a<a>ü<a></a></a>".toList "a".toList = some (11, 16) := by decide

end Sine
end SynthControl
