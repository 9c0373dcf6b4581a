import ChoiceScript.Fault
import ChoiceScript.Text.Basic

/-! # Documents

A position is a line and a character, both from zero, ordered by line first. A range is half open
and never reversed: its type holds the proof.

A document is a snapshot of a text with the table that turns offsets into positions and back. Lines
end at a line feed, at a carriage return, or at the pair of them. Offsets outside the text are taken
for the nearest one inside.
-/

namespace ChoiceScript

/-- A line of a document and a character on it. -/
structure Position where
  line : Nat
  character : Nat
  deriving DecidableEq, Repr

namespace Position

instance : LE Position :=
  ⟨fun a b => a.line < b.line ∨ a.line = b.line ∧ a.character ≤ b.character⟩

instance : LT Position :=
  ⟨fun a b => a.line < b.line ∨ a.line = b.line ∧ a.character < b.character⟩

instance (a b : Position) : Decidable (a ≤ b) :=
  inferInstanceAs (Decidable (a.line < b.line ∨ a.line = b.line ∧ a.character ≤ b.character))

instance (a b : Position) : Decidable (a < b) :=
  inferInstanceAs (Decidable (a.line < b.line ∨ a.line = b.line ∧ a.character < b.character))

instance : Ord Position :=
  ⟨fun a b => (compare a.line b.line).then (compare a.character b.character)⟩

theorem le_def {a b : Position} :
    a ≤ b ↔ a.line < b.line ∨ a.line = b.line ∧ a.character ≤ b.character := Iff.rfl

theorem lt_def {a b : Position} :
    a < b ↔ a.line < b.line ∨ a.line = b.line ∧ a.character < b.character := Iff.rfl

@[simp] theorem le_refl (a : Position) : a ≤ a := .inr ⟨rfl, Nat.le_refl _⟩

theorem not_le {a b : Position} : ¬ a ≤ b ↔ b < a := by
  simp only [le_def, lt_def]
  omega

theorem le_of_lt {a b : Position} (less : a < b) : a ≤ b := by
  simp only [lt_def, le_def] at *
  omega

theorem le_trans {a b c : Position} (first : a ≤ b) (second : b ≤ c) : a ≤ c := by
  simp only [le_def] at *
  omega

/-- The position of given numbers, neither of which may be negative. -/
def ofInts (line character : Int) : Except Fault Position :=
  if line < 0 ∨ character < 0 then .error .negativePosition
  else .ok ⟨line.toNat, character.toNat⟩

def render (p : Position) : String :=
  "Position(" ++ toString p.line ++ ", " ++ toString p.character ++ ")"

end Position

/-- The part of a document from one position up to another. -/
structure Range where
  start : Position
  stop : Position
  start_le_stop : start ≤ stop
  deriving DecidableEq, Repr

namespace Range

/-- The range between two positions, unless the second comes first. -/
def between (start stop : Position) : Except Fault Range :=
  if ordered : start ≤ stop then .ok ⟨start, stop, ordered⟩ else .error .reversedRange

/-- The range of given line and character numbers. The start is looked at first, then the end,
then their order. -/
def ofInts (startLine startCharacter stopLine stopCharacter : Int) : Except Fault Range := do
  let start ← Position.ofInts startLine startCharacter
  let stop ← Position.ofInts stopLine stopCharacter
  between start stop

def isEmpty (range : Range) : Bool := range.start = range.stop

def contains (outer inner : Range) : Bool := outer.start ≤ inner.start && inner.stop ≤ outer.stop

/-- Where one range stands to another: before it, after it, or neither. -/
def ordering (a b : Range) : Ordering :=
  if a.stop ≤ b.start then .lt else if b.stop ≤ a.start then .gt else .eq

def render (range : Range) : String :=
  "Range(" ++ toString range.start.line ++ ":" ++ toString range.start.character ++ ", "
    ++ toString range.stop.line ++ ":" ++ toString range.stop.character ++ ")"

end Range

/-- A range of the document with a given address. -/
structure Location where
  uri : String
  range : Range
  deriving DecidableEq, Repr

/-- One version of a document's text. -/
structure Document where
  uri : String
  text : Text
  version : Nat := 0
  deriving DecidableEq, Repr

namespace Text

def breakEnds (offset : Nat) : Text → List Nat
  | [] => []
  | '\r' :: '\n' :: rest => (offset + 2) :: breakEnds (offset + 2) rest
  | c :: rest =>
    if c = '\r' ∨ c = '\n' then (offset + 1) :: breakEnds (offset + 1) rest
    else breakEnds (offset + 1) rest

def lineStarts (text : Text) : List Nat := 0 :: breakEnds 0 text

end Text

namespace Document

/-- The offset of the document's text nearest to a number. -/
def clamp (document : Document) (offset : Int) : Nat := min offset.toNat document.text.length

/-- The number of lines. A line break at the end is followed by an empty line. -/
def lineCount (document : Document) : Nat := (Text.lineStarts document.text).length

/-- The position of an offset: the last line that starts at or before it. -/
def positionAt (document : Document) (offset : Int) : Position :=
  let offset := document.clamp offset
  let starts := (Text.lineStarts document.text).takeWhile (· ≤ offset)
  ⟨starts.length - 1, offset - starts.getLastD 0⟩

/-- The offset of a position. A character past the end of its line is taken for the start of the
next line, a line past the last one for the end of the text. -/
def offsetAt (document : Document) (position : Position) : Nat :=
  let starts := Text.lineStarts document.text
  match starts[position.line]? with
  | none => document.text.length
  | some start =>
    min (start + position.character) (starts.getD (position.line + 1) document.text.length)

def rangeAt (document : Document) (start stop : Int) : Except Fault Range :=
  Range.between (document.positionAt start) (document.positionAt stop)

def locationAt (document : Document) (start stop : Int) : Except Fault Location :=
  return ⟨document.uri, ← document.rangeAt start stop⟩

def endPosition (document : Document) : Position := document.positionAt document.text.length

end Document

end ChoiceScript
