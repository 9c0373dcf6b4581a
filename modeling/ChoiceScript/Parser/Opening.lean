import ChoiceScript.Multireplace
import ChoiceScript.Text.Opener

/-! # Openings

The places of a text where a replacement or a multireplace opens, found from left to right. Reading
goes on after a construct that is closed and can be used, and just after the opener of any other.
Where it goes on depends on the text alone.
-/

namespace ChoiceScript

/-- Where reading goes on after the contents of a group that start at an offset: past its closing
delimiter, or at the contents if there is none. -/
def Text.resumeGroup (text : Text) (opening closing : Char) (start : Nat) : Nat :=
  match matchingSpan text opening closing start with
  | some contents => start + contents.length + 1
  | none => start

/-- As for a group, but a reference that holds nothing is not passed. -/
def Text.resumeReference (text : Text) (start : Nat) : Nat :=
  match matchingSpan text '{' '}' start with
  | some contents => if blank contents then start else start + contents.length + 1
  | none => start

/-- An opener and the offset where it stands. -/
structure Opening where
  opener : Opener
  start : Nat
  deriving DecidableEq, Repr

namespace Opening

def contents (opening : Opening) : Nat := opening.start + opening.opener.length

def resume (text : Text) (opening : Opening) : Nat :=
  match opening.opener.kind with
  | .replacement => text.resumeReference opening.contents
  | .multireplace => Multireplace.resume text opening.contents

/-- Reading goes on after the opener at the earliest. -/
theorem contents_le_resume (text : Text) (opening : Opening) :
    opening.contents ≤ opening.resume text := by
  unfold resume
  split
  · unfold Text.resumeReference
    split
    · split <;> omega
    · exact Nat.le_refl _
  · exact Multireplace.le_resume text opening.contents

theorem length_pos_of_seek {text : Text} {skipped : Nat} {opener : Opener}
    (h : Opener.seek Opener.at? text = some (skipped, opener)) :
    0 < opener.length ∧ skipped < text.length := by
  induction text generalizing skipped with
  | nil => simp [Opener.seek] at h
  | cons c rest ih =>
    unfold Opener.seek at h
    split at h
    · rename_i found
      obtain ⟨rfl, rfl⟩ := Prod.mk.inj (Option.some.inj h)
      exact ⟨by have := Opener.two_le_length_of_at? found; omega, by simp⟩
    · obtain ⟨⟨before, opener⟩, found, same⟩ := Option.map_eq_some_iff.1 h
      obtain ⟨rfl, rfl⟩ := Prod.mk.inj same
      have := ih found
      simp only [List.length_cons]
      omega

/-- The constructs that open between two offsets, each found where reading goes on after the one
before. An opener counts if it ends before the second offset. -/
def between (text : Text) (start stop : Nat) : List Opening :=
  match _found : Opener.seek Opener.at? ((text.take stop).drop start) with
  | none => []
  | some (skipped, opener) =>
    let opening : Opening := ⟨opener, start + skipped⟩
    opening :: between text (opening.resume text) stop
termination_by text.length - start
decreasing_by
  have := length_pos_of_seek _found
  have := contents_le_resume text ⟨opener, start + skipped⟩
  simp only [contents, List.length_drop, List.length_take] at *
  omega

end Opening

/-- What ends a stretch of a string's plain text. -/
inductive StringMark where
  | construct (opener : Opener)
  | quote
  deriving DecidableEq, Repr

namespace StringMark

/-- The first mark of a text. A quote right after a backslash is none; `escaped` says that a
backslash stands before the text. -/
def seek (escaped : Bool) : Text → Option (Nat × StringMark)
  | [] => none
  | c :: rest =>
    match Opener.at? (c :: rest) with
    | some opener => some (0, .construct opener)
    | none =>
      if c = '"' && !escaped then some (0, .quote)
      else (seek (c = '\\') rest).map fun (skipped, mark) => (skipped + 1, mark)

theorem length_pos_of_seek {escaped : Bool} {text : Text} {skipped : Nat} {opener : Opener}
    (h : seek escaped text = some (skipped, .construct opener)) :
    0 < opener.length ∧ skipped < text.length := by
  induction text generalizing skipped escaped with
  | nil => simp [seek] at h
  | cons c rest ih =>
    simp only [seek] at h
    split at h
    · rename_i found
      obtain ⟨rfl, same⟩ := Prod.mk.inj (Option.some.inj h)
      cases same
      exact ⟨by have := Opener.two_le_length_of_at? found; omega, by simp⟩
    · split at h
      · simp at h
      · obtain ⟨⟨before, mark⟩, found, same⟩ := Option.map_eq_some_iff.1 h
        obtain ⟨rfl, rfl⟩ := Prod.mk.inj same
        have := ih found
        simp only [List.length_cons]
        omega

end StringMark

namespace Opening

def afterBackslash (text : Text) (start : Nat) : Bool := (text.take start).getLast? = some '\\'

/-- The constructs that open in a string whose contents start at an offset, and the offset just
past its closing quote, or the end of the text if there is none. -/
def inString (text : Text) (start : Nat) : List Opening × Nat :=
  match _found : StringMark.seek (afterBackslash text start) (text.drop start) with
  | none => ([], text.length)
  | some (skipped, .quote) => ([], start + skipped + 1)
  | some (skipped, .construct opener) =>
    let opening : Opening := ⟨opener, start + skipped⟩
    let (openings, stop) := inString text (opening.resume text)
    (opening :: openings, stop)
termination_by text.length - start
decreasing_by
  have := StringMark.length_pos_of_seek _found
  have := contents_le_resume text ⟨opener, start + skipped⟩
  simp only [contents, List.length_drop] at *
  omega

end Opening

end ChoiceScript
