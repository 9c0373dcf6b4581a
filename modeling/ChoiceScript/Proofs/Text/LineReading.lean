import ChoiceScript.Proofs.Text.LineBounds

/-! # Lines part a text

What is read line by line is the whole text, cut behind its line feeds. An indented line falls into all the
padding that it starts with, its contents, and the longest ending that it has. A reader that looks for a line
with more than white space skips blank lines only.
-/

namespace ChoiceScript

namespace Text

/-- What may end a line. -/
def lineEndings : List Text := [[], ['\r'], ['\n'], ['\r', '\n']]

/-- What is left of a text without its ending, the longest of those that it has. -/
def LosesEnding (text left : Text) : Prop :=
  ∃ ending ∈ lineEndings, text = left ++ ending ∧
    ∀ other ∈ lineEndings, other <:+ text → other <:+ ending

end Text

/-- The parts of an indented line: all the padding that it starts with, and what follows without its
ending. -/
structure Indented.Divides (parts : Indented) (line : Text) : Prop where
  indented : parts.padding ≠ []
  padding : IsLongestPrefix (fun before => ∀ c ∈ before, Text.isPadding c = true) parts.padding line
  contents : ∃ behind, line = parts.padding ++ behind ∧ Text.LosesEnding behind parts.contents

namespace Text

variable {text left other line : Text}

theorem LosesEnding.unique (one : LosesEnding text left) (two : LosesEnding text other) : left = other := by
  obtain ⟨ending, known, whole, longest⟩ := one
  obtain ⟨ending', known', whole', longest'⟩ := two
  have same : ending = ending' :=
    (longest' ending known ⟨left, whole.symm⟩).eq_of_length_le
      (longest ending' known' ⟨other, whole'.symm⟩).length_le
  subst same
  exact List.append_cancel_right (whole.symm.trans whole')

/-- What is dropped at the end of a text is the longest of the terminators that it ends in. -/
theorem exists_terminator (text : Text) : ∃ terminator ∈ terminators,
    text = withoutTerminator text ++ terminator ∧
    ∀ other ∈ terminators, other <:+ text → other <:+ terminator := by
  fun_induction withoutTerminator text with
  | case1 => exact ⟨[], by decide, rfl, fun _ _ ends => ends⟩
  | case2 c rest known => exact ⟨c :: rest, known, rfl, fun _ _ ends => ends⟩
  | case3 c rest unknown ih =>
      obtain ⟨terminator, known, whole, longest⟩ := ih
      refine ⟨terminator, known, congrArg (c :: ·) whole, fun other among ends => ?_⟩
      rcases List.suffix_cons_iff.1 ends with rfl | later
      · exact absurd among unknown
      · exact longest other among later

/-- A text that holds a line feed at its end only loses one ending, never two line feeds. -/
theorem losesEnding_withoutTerminator (plain : '\n' ∉ text.dropLast) :
    LosesEnding text (withoutTerminator text) := by
  obtain ⟨terminator, known, whole, longest⟩ := exists_terminator text
  have isEnding : terminator ∈ lineEndings := by
    by_contra unknown
    have twice : terminator = ['\n', '\n'] ∨ terminator = ['\r', '\n', '\n'] := by
      simp only [terminators, lineEndings, List.mem_cons, List.not_mem_nil, or_false] at known unknown
      tauto
    rw [whole] at plain
    rcases twice with rfl | rfl <;> simp [List.dropLast_append_of_ne_nil] at plain
  have known : lineEndings ⊆ terminators := by simp [lineEndings, terminators]
  exact ⟨terminator, isEnding, whole, fun other among => longest other (known among)⟩

theorem withoutTerminator_eq_iff (plain : '\n' ∉ text.dropLast) :
    withoutTerminator text = left ↔ LosesEnding text left :=
  ⟨fun same => same ▸ losesEnding_withoutTerminator plain,
    (losesEnding_withoutTerminator plain).unique⟩

/-- A line has no parts if it does not start with padding. -/
theorem indented?_eq_none_iff : indented? line = none ↔ ∀ c ∈ line.head?, isPadding c = false := by
  cases line with
  | nil => simp [indented?]
  | cons c rest =>
      cases padding : isPadding c <;> simp [indented?, padding]

theorem indented?_eq_some_iff {parts : Indented} (plain : '\n' ∉ line.dropLast) :
    indented? line = some parts ↔ parts.Divides line := by
  obtain ⟨padding, behind, rfl, padded, stops⟩ := exists_parts isPadding line
  have longest := isLongestPrefix_takeWhile isPadding (padding ++ behind)
  have plainBehind : '\n' ∉ behind.dropLast := by
    cases behind with
    | nil => exact List.not_mem_nil
    | cons c rest =>
        rw [List.dropLast_append_of_ne_nil (List.cons_ne_nil _ _), List.mem_append, not_or] at plain
        exact plain.2
  simp only [indented?, takeWhile_exact padded stops, dropWhile_exact padded stops] at longest ⊢
  cases padding with
  | nil => exact ⟨nofun, fun divides => absurd (divides.padding.unique longest) divides.indented⟩
  | cons c more =>
      rw [Option.some.injEq]
      constructor
      · rintro rfl
        exact ⟨List.cons_ne_nil _ _, longest, behind, rfl, losesEnding_withoutTerminator plainBehind⟩
      · rintro ⟨-, all, after, whole, loses⟩
        have same := all.unique longest
        rw [same, List.append_cancel_left_eq] at whole
        subst whole
        rw [(withoutTerminator_eq_iff plainBehind).2 loses, ← same]

/-- A line with more than white space is found behind lines without. -/
theorem readNonblankLine_eq_some_iff {start : Nat} {found : Piece} :
    readNonblankLine text start = some found ↔ ∃ skipped rest,
      linesFrom text start = skipped ++ found :: rest ∧
      (∀ line ∈ skipped, blank line.text = true) ∧ blank found.text = false := by
  rw [readNonblankLine, List.find?_eq_some_iff_append]
  simp only [Bool.not_eq_true', Bool.not_not]
  constructor
  · rintro ⟨solid, skipped, rest, lines, blank⟩
    exact ⟨skipped, rest, lines, blank, solid⟩
  · rintro ⟨skipped, rest, lines, blank, solid⟩
    exact ⟨solid, skipped, rest, lines, blank⟩

/-- Lines that are read one after another from an offset are what the text holds from there on. None is empty,
and none goes on behind a line feed. A line that does not start with padding has no parts, any other has the
parts that it falls into. Of these lines the first that is not blank is found, and all that is skipped is
blank. Where carriage returns stand before line feeds only, the line at an offset ends at the next entry of the
table of line starts, or at the end of the text if there is none. -/
theorem lines_partition (text : Text) (start : Nat) :
    ∃ lines, ReadsLines text start lines ∧
      (lines.map Piece.text).flatten = text.drop start ∧
      (∀ line ∈ lines, line.text ≠ [] ∧ '\n' ∉ line.text.dropLast ∧
        (indented? line.text = none ↔ ∀ c ∈ line.text.head?, isPadding c = false) ∧
        ∀ parts : Indented, indented? line.text = some parts ↔ parts.Divides line.text) ∧
      (∀ found, readNonblankLine text start = some found ↔ ∃ skipped rest,
        lines = skipped ++ found :: rest ∧ (∀ line ∈ skipped, blank line.text = true) ∧
          blank found.text = false) ∧
      (readNonblankLine text start = none ↔ ∀ line ∈ lines, blank line.text = true) ∧
      ((∀ place, text[place]? = some '\r' → text[place + 1]? = some '\n') → start < text.length →
        ∃ stop, lineEnd? text start = some stop ∧
          (IsLeast {entry | entry ∈ lineStarts text ∧ start < entry} stop ∨
            (∀ entry ∈ lineStarts text, entry ≤ start) ∧ stop = text.length)) := by
  refine ⟨linesFrom text start, readsLines_linesFrom text start, ?_, fun line member => ?_,
    fun found => readNonblankLine_eq_some_iff, ?_, fun paired inside => ?_⟩
  · rw [map_text_linesFrom, flatten_cutLines]
  · have cut : line.text ∈ cutLines (text.drop start) := by
      rw [← map_text_linesFrom]
      exact List.mem_map_of_mem member
    obtain ⟨nonempty, plain⟩ := of_mem_cutLines cut
    exact ⟨nonempty, plain, indented?_eq_none_iff, fun _ => indented?_eq_some_iff plain⟩
  · simp [readNonblankLine]
  · obtain ⟨last, ends, stops⟩ := exists_lineLast inside
    exact ⟨last + 1, stops, ends.next_start paired⟩

/-- A blank line, an indented one, and one without an ending, after pairs of a carriage return and a line
feed. -/
def crossedLines : Text := "\t \r\n  a\r\nb".toList

theorem crossedLines_partition :
    (∀ place, crossedLines[place]? = some '\r' → crossedLines[place + 1]? = some '\n') ∧
    8 < crossedLines.length ∧
    (∃ lines, ReadsLines crossedLines 8 lines ∧ (lines.map Piece.text).flatten = "\nb".toList ∧
      ∃ skipped rest, lines = skipped ++ ⟨['b'], 9⟩ :: rest ∧
        ∀ line ∈ skipped, blank line.text = true) ∧
    ∃ stop, lineEnd? crossedLines 8 = some stop ∧
      (IsLeast {entry | entry ∈ lineStarts crossedLines ∧ 8 < entry} stop ∨
        (∀ entry ∈ lineStarts crossedLines, entry ≤ 8) ∧ stop = crossedLines.length) := by
  have paired (place : Nat) (turn : crossedLines[place]? = some '\r') :
      crossedLines[place + 1]? = some '\n' := by
    have all : ∀ place < crossedLines.length,
        crossedLines[place]? = some '\r' → crossedLines[place + 1]? = some '\n' := by decide
    exact all place (List.getElem?_eq_some_iff.1 turn).1 turn
  have inside : 8 < crossedLines.length := by decide
  obtain ⟨lines, reads, whole, -, found, -, table⟩ := lines_partition crossedLines 8
  obtain ⟨skipped, rest, parts, blank, -⟩ := (found ⟨['b'], 9⟩).1 (by decide)
  exact ⟨paired, inside, ⟨lines, reads, whole, skipped, rest, parts, blank⟩, table paired inside⟩

end Text

end ChoiceScript
