import ChoiceScript.Proofs.Document.LineTable

/-! # Quotations

A location quotes a text when the document has just that text there. Texts are read from copies of a
part of the document, or from copies with spaces written over some characters, and a piece of a copy
is a copy again, further right. So whatever is cut out of a copy is quoted by its location, however
deep it stands.
-/

namespace ChoiceScript

namespace Document

/-- The characters from one offset up to another. -/
def slice (document : Document) (start stop : Nat) : Text := (document.text.take stop).drop start

/-- A range runs between two offsets of the document. -/
def Covers (document : Document) (range : Range) : Prop :=
  ∃ start stop : Nat, start ≤ stop ∧ stop ≤ document.text.length ∧
    range.start = document.positionAt start ∧ range.stop = document.positionAt stop

/-- A location lies in the document. -/
structure Holds (document : Document) (location : Location) : Prop where
  uri : location.uri = document.uri
  covers : document.Covers location.range

/-- A location lies in the document, which has the given text there. -/
structure Quotes (document : Document) (location : Location) (text : Text) : Prop
    extends document.Holds location where
  slice : document.slice (document.offsetAt location.range.start)
    (document.offsetAt location.range.stop) = text

/-- The document has a character at an offset. -/
def HasAt (document : Document) (index : Int) (c : Char) : Prop :=
  ∃ offset : Nat, index = offset ∧ document.text[offset]? = some c

/-- A text is what the document has from an offset on. -/
def Copies (document : Document) (text : Text) (index : Int) : Prop :=
  ∀ (i : Nat) (c : Char), text[i]? = some c → document.HasAt (index + i) c

/-- A text is what the document has from an offset on, but for spaces. -/
def Mirrors (document : Document) (text : Text) (index : Int) : Prop :=
  ∀ (i : Nat) (c : Char), text[i]? = some c → c = ' ' ∨ document.HasAt (index + i) c

/-- Any two offsets in order make a range of the document, for they are cut to its text. -/
theorem covers_of_le {document : Document} {range : Range} {start stop : Int} (le : start ≤ stop)
    (first : range.start = document.positionAt start)
    (last : range.stop = document.positionAt stop) : document.Covers range :=
  ⟨document.clamp start, document.clamp stop, clamp_mono le, document.clamp_le stop,
    by rw [first, positionAt_clamp], by rw [last, positionAt_clamp]⟩

theorem holds_of_locationAt {document : Document} {start stop : Int} {location : Location}
    (le : start ≤ stop) (located : document.locationAt start stop = .ok location) :
    document.Holds location := by
  rw [locationAt_eq le, Except.ok.injEq] at located
  subst located
  exact ⟨rfl, covers_of_le le rfl rfl⟩

theorem copies_whole (document : Document) : document.Copies document.text 0 := by
  intro i c found
  exact ⟨i, by omega, found⟩

theorem Copies.mirrors {document : Document} {text : Text} {index : Int}
    (copies : document.Copies text index) : document.Mirrors text index :=
  fun i c found => .inr (copies i c found)

/-- Without spaces of its own a text with spaces written over others is a copy. -/
theorem Mirrors.copies {document : Document} {text : Text} {index : Int}
    (mirrors : document.Mirrors text index) (plain : ' ' ∉ text) : document.Copies text index := by
  intro i c found
  rcases mirrors i c found with rfl | held
  · exact absurd (List.mem_of_getElem? found) plain
  · exact held

/-- A character of a piece is one of the text, further right. -/
theorem getElem?_of_prefix_drop {text piece : Text} {start i : Nat} {c : Char}
    (part : piece <+: text.drop start) (found : piece[i]? = some c) :
    text[start + i]? = some c := by
  obtain ⟨inside, rfl⟩ := List.getElem?_eq_some_iff.1 found
  rw [part.getElem inside, ← List.getElem?_drop]
  exact List.getElem?_eq_getElem _

theorem Copies.piece {document : Document} {text piece : Text} {index place : Int} {start : Nat}
    (copies : document.Copies text index) (part : piece <+: text.drop start)
    (same : place = index + start) : document.Copies piece place := by
  intro i c found
  have held := copies (start + i) c (getElem?_of_prefix_drop part found)
  rwa [same, Int.add_assoc, ← Int.natCast_add]

theorem Copies.head {document : Document} {text piece : Text} {index : Int}
    (copies : document.Copies text index) (part : piece <+: text) : document.Copies piece index :=
  have whole : piece <+: text.drop 0 := part
  copies.piece whole (by omega)

theorem Mirrors.piece {document : Document} {text piece : Text} {index place : Int} {start : Nat}
    (mirrors : document.Mirrors text index) (part : piece <+: text.drop start)
    (same : place = index + start) : document.Mirrors piece place := by
  intro i c found
  have held := mirrors (start + i) c (getElem?_of_prefix_drop part found)
  rwa [same, Int.add_assoc, ← Int.natCast_add]

/-- Writing more spaces over a text changes nothing. -/
theorem Mirrors.overwritten {document : Document} {text prose : Text} {index : Int}
    (mirrors : document.Mirrors text index)
    (spaced : ∀ (i : Nat) (c : Char), prose[i]? = some c → c = ' ' ∨ text[i]? = some c) :
    document.Mirrors prose index := by
  intro i c found
  rcases spaced i c found with blank | kept
  · exact .inl blank
  · exact mirrors i c kept

/-- A copy is what stands between its ends. -/
theorem Copies.slice_eq {document : Document} {text : Text} {index : Int}
    (copies : document.Copies text index) :
    document.slice (document.clamp index) (document.clamp (index + text.length)) = text := by
  cases text with
  | nil => simp [slice]
  | cons first rest =>
      obtain ⟨offset, start, -⟩ := copies 0 first rfl
      obtain rfl : index = offset := by omega
      have held : ∀ (i : Nat) (c : Char), (first :: rest)[i]? = some c →
          document.text[offset + i]? = some c := by
        intro i c found
        obtain ⟨place, same, held⟩ := copies i c found
        obtain rfl : place = offset + i := by omega
        exact held
      have fits : offset + (first :: rest).length ≤ document.text.length := by
        have last := held rest.length _ (List.getElem?_eq_getElem (by simp))
        have := (List.getElem?_eq_some_iff.1 last).1
        simp only [List.length_cons]
        omega
      rw [← Int.natCast_add, clamp_natCast fits, clamp_natCast (by omega), slice]
      apply List.ext_getElem?
      intro i
      rw [List.getElem?_drop, List.getElem?_take]
      split
      · rename_i inside
        have found := List.getElem?_eq_getElem (l := first :: rest) (i := i) (by omega)
        rw [found, held i _ found]
      · exact (List.getElem?_eq_none (by omega)).symm

/-- The location of a copy quotes it. -/
theorem Copies.quotes {document : Document} {text : Text} {index : Int} {location : Location}
    (copies : document.Copies text index)
    (located : document.locationAt index (index + text.length) = .ok location) :
    document.Quotes location text := by
  refine ⟨holds_of_locationAt (by omega) located, ?_⟩
  rw [locationAt_eq (by omega), Except.ok.injEq] at located
  subst located
  simp only [offsetAt_positionAt]
  exact copies.slice_eq

end Document

end ChoiceScript
