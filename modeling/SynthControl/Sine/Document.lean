import SynthControl.Text.Scan

/-!
# Documents

A document holds options, an orchestra and a score between tags.

* `openTag`, `closeTag` — the tags of a section;
* `section?` — the text between the first opening tag and the first closing tag behind it.

Main statement: `section?_eq_some` (the document splits at the tags).
-/

namespace SynthControl.Sine

/-- The tag in front of a section. -/
def openTag (name : List Char) : List Char := '<' :: name ++ ['>']

/-- The tag behind a section. -/
def closeTag (name : List Char) : List Char := '<' :: '/' :: name ++ ['>']

/-- The text of a section: what stands between the first opening tag and the first closing tag behind
it. -/
def section? (document name : List Char) : Option (List Char) :=
  match Text.splitFirst? (openTag name) document with
  | none => none
  | some (_, rest) => (Text.splitFirst? (closeTag name) rest).map Prod.fst

/-- The document splits at the tags of a section. -/
theorem section?_eq_some {document name body : List Char} (h : section? document name = some body) :
    ∃ before behind, document = before ++ openTag name ++ body ++ closeTag name ++ behind := by
  simp only [section?] at h
  split at h
  · simp at h
  · next before rest hs =>
    obtain ⟨⟨b, behind⟩, hc, rfl⟩ := Option.map_eq_some_iff.1 h
    exact ⟨before, behind, by
      rw [Text.splitFirst?_eq_some hs, Text.splitFirst?_eq_some hc]; simp [List.append_assoc]⟩

end SynthControl.Sine
