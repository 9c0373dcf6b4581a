import ChoiceScript.CommandLine
import ChoiceScript.Text.Line
import ChoiceScript.Vocabulary

/-! # Stat charts

Below `*stat_chart` stand lines that all have the padding of the first. A line with less padding
ends the chart, one with other padding that is no shorter is a mistake and ends it too. Some words
own a block of deeper lines, which is passed over.
-/

namespace ChoiceScript

/-- A line of a stat chart: padding, a word, and the rest parted from it by padding. -/
structure StatLine where
  padding : Text
  word : Text
  spacing : Text
  rest : Text
  terminator : Text
  deriving DecidableEq, Repr

namespace StatLine

/-- A line feed, with or without a carriage return, that a text starts with. -/
def terminatorOf : Text → Text
  | '\r' :: '\n' :: _ => ['\r', '\n']
  | '\n' :: _ => ['\n']
  | _ => []

/-- The line of a stat chart that a text starts with. -/
def read? (text : Text) : Option StatLine :=
  let padding := text.takeWhile Text.isPadding
  let afterPadding := text.dropWhile Text.isPadding
  let word := afterPadding.takeWhile (!Text.isBlank ·)
  let afterWord := afterPadding.dropWhile (!Text.isBlank ·)
  let spacing := afterWord.takeWhile Text.isPadding
  let afterSpacing := afterWord.dropWhile Text.isPadding
  let rest := if spacing = [] then [] else afterSpacing.takeWhile (!CommandLine.endsLine ·)
  if padding = [] || word = [] then none
  else some ⟨padding, word, spacing, rest, terminatorOf (afterSpacing.drop rest.length)⟩

def length (line : StatLine) : Nat :=
  line.padding.length + line.word.length + line.spacing.length + line.rest.length
    + line.terminator.length

/-- The word that starts the line, as a name. -/
def command (line : StatLine) : String := String.ofList line.word

/-- Does the line lack what should follow its word? -/
def isBare (line : StatLine) : Bool := Text.blank line.rest

theorem length_pos_of_read? {text : Text} {line : StatLine} (h : read? text = some line) :
    0 < line.length ∧ text ≠ [] := by
  unfold read? at h
  dsimp only at h
  split at h
  · simp at h
  · rename_i present
    obtain rfl := Option.some.inj h
    simp only [Bool.or_eq_true, decide_eq_true_eq, not_or] at present
    constructor
    · have := List.length_pos_iff.2 present.1
      simp only [length]
      omega
    · rintro rfl
      simp at present

end StatLine

/-- The lines of a stat chart with the offsets where they start, and the stretch of a line that is
padded wrongly, if one ends the chart. -/
structure StatChart where
  lines : List (Nat × StatLine)
  misindented : Option (Nat × Nat)
  deriving DecidableEq, Repr

namespace StatChart

/-- The chart on the lines from an offset on. The first line fixes the padding unless it is
given. -/
def readFrom (text : Text) (padding : Option Text) (start : Nat) : StatChart :=
  match _found : StatLine.read? (text.drop start) with
  | none => ⟨[], none⟩
  | some line =>
    let padding := padding.getD line.padding
    if line.padding.length < padding.length then ⟨[], none⟩
    else if line.padding ≠ padding then ⟨[], some (start, start + line.length)⟩
    else
      let next := start + line.length
      let block :=
        if Vocabulary.statChartBlockCommands.contains line.command then
          (text.indentedBlock padding.length next).length
        else 0
      let chart := readFrom text (some padding) (next + block)
      { chart with lines := (start, line) :: chart.lines }
termination_by text.length - start
decreasing_by
  obtain ⟨positive, nonempty⟩ := StatLine.length_pos_of_read? _found
  have : start < text.length := by
    refine Nat.lt_of_not_le fun le => nonempty ?_
    rw [List.drop_eq_nil_iff]
    exact le
  omega

/-- The chart on the lines from an offset on. -/
def read (text : Text) (start : Nat) : StatChart := readFrom text none start

end StatChart

end ChoiceScript
