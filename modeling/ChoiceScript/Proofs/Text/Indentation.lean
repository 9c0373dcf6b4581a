import ChoiceScript.Proofs.CommandLine
import ChoiceScript.Proofs.Text.Lines

/-! # Indented blocks

A block goes on as long as its lines are indented alike: none is blank, and each is padded by copies of one
character, more of them than the level of the line that owns the block. The first line says which character
that is.
-/

namespace ChoiceScript.Text

/-- A line is not blank, and its padding is more than `level` copies of one character. -/
structure IndentedBy (level : Nat) (unit : Char) (line : Text) : Prop where
  solid : blank line = false
  padding : isPadding unit = true
  deep : ∃ copies behind, level < copies ∧ line = List.replicate copies unit ++ behind ∧
    ∀ c ∈ behind.head?, isPadding c = false

/-- All lines are indented by the same character. -/
def IndentedAlike (level : Nat) (lines : List Text) : Prop :=
  ∃ unit, ∀ line ∈ lines, IndentedBy level unit line

variable {level : Nat} {unit other : Char} {line : Text} {lines : List Text}

/-- How a line is indented can be seen from its padding. -/
theorem indentedBy_iff : IndentedBy level unit line ↔ blank line = false ∧
    level < (line.takeWhile isPadding).length ∧ ∀ c ∈ line.takeWhile isPadding, c = unit := by
  constructor
  · rintro ⟨solid, padding, copies, behind, deep, rfl, stops⟩
    have padded : ∀ c ∈ List.replicate copies unit, isPadding c = true :=
      fun c member => List.eq_of_mem_replicate member ▸ padding
    rw [takeWhile_exact padded stops, List.length_replicate]
    exact ⟨solid, deep, fun c => List.eq_of_mem_replicate⟩
  · rintro ⟨solid, deep, same⟩
    obtain ⟨padding, behind, rfl, padded, stops⟩ := exists_parts isPadding line
    rw [takeWhile_exact padded stops] at deep same
    obtain ⟨c, more, rfl⟩ := List.exists_cons_of_length_pos (Nat.zero_lt_of_lt deep)
    have first : isPadding unit = true := same c List.mem_cons_self ▸ padded c List.mem_cons_self
    exact ⟨solid, first, _, behind, deep, by rw [← List.eq_replicate_of_mem same], stops⟩

/-- A block goes on at a line just if the test that ends it fails. -/
theorem indentedBy_iff_eq_false : IndentedBy level unit line ↔
    (blank line || decide ((line.takeWhile isPadding).length ≤ level) ||
      (line.takeWhile isPadding).any (· ≠ unit)) = false := by
  simp [indentedBy_iff, and_assoc]

instance : Decidable (IndentedBy level unit line) := decidable_of_iff' _ indentedBy_iff_eq_false

/-- An indented line starts with the character that it is indented by. -/
theorem IndentedBy.head?_padding (indented : IndentedBy level unit line) :
    (line.takeWhile isPadding).head? = some unit := by
  obtain ⟨-, deep, same⟩ := indentedBy_iff.1 indented
  obtain ⟨c, more, padding⟩ := List.exists_cons_of_length_pos (Nat.zero_lt_of_lt deep)
  rw [padding, List.head?_cons, same c (by simp [padding])]

/-- Once the character is given, lines are taken while they are indented by it. -/
theorem indentedLines_some (level : Nat) (unit : Char) (lines : List Text) :
    indentedLines level (some unit) lines =
      lines.takeWhile fun line => decide (IndentedBy level unit line) := by
  induction lines with
  | nil => rfl
  | cons line lines ih =>
      rw [indentedLines, Option.some_or]
      by_cases indented : IndentedBy level unit line
      · simp only [indentedBy_iff_eq_false.1 indented, Bool.false_eq_true, if_false, ih,
          List.takeWhile_cons, decide_eq_true indented, if_true]
      · have stops := mt indentedBy_iff_eq_false.2 indented
        rw [Bool.not_eq_false] at stops
        simp only [stops, if_true, List.takeWhile_cons, decide_eq_false indented, Bool.false_eq_true,
          if_false]

/-- The first line says by which character lines are indented. -/
theorem indentedLines_none (level : Nat) (line : Text) (lines : List Text) :
    indentedLines level none (line :: lines) = (line.takeWhile isPadding).head?.elim []
      fun unit => indentedLines level (some unit) (line :: lines) := by
  simp only [indentedLines, Option.none_or, Option.some_or]
  cases (line.takeWhile isPadding).head? <;> rfl

/-- Lines at the head of a list that are indented alike are so by the character of the first line. -/
theorem IndentedAlike.of_prefix {taken : List Text} (alike : IndentedAlike level taken)
    (begins : taken <+: line :: lines) : taken = [] ∨ ∃ unit,
      (line.takeWhile isPadding).head? = some unit ∧ ∀ line ∈ taken, IndentedBy level unit line := by
  cases taken with
  | nil => exact .inl rfl
  | cons first more =>
      obtain ⟨unit, indented⟩ := alike
      obtain ⟨rfl, -⟩ := List.cons_prefix_cons.1 begins
      exact .inr ⟨unit, (indented _ List.mem_cons_self).head?_padding, indented⟩

/-- As many lines are taken as are indented alike. -/
theorem indentedLines_longest (level : Nat) (lines : List Text) :
    IsLongestPrefix (IndentedAlike level) (indentedLines level none lines) lines := by
  cases lines with
  | nil => exact ⟨List.nil_prefix, ⟨' ', nofun⟩, fun other begins _ => begins⟩
  | cons line lines =>
      rw [indentedLines_none]
      cases first : (line.takeWhile isPadding).head? with
      | none =>
          refine ⟨List.nil_prefix, ⟨' ', nofun⟩, fun other begins alike => ?_⟩
          rcases alike.of_prefix begins with rfl | ⟨unit, padded, -⟩
          · exact List.nil_prefix
          · rw [first] at padded
            cases padded
      | some unit =>
          have longest := isLongestPrefix_takeWhile (fun line => decide (IndentedBy level unit line))
            (line :: lines)
          simp only [decide_eq_true_eq, ← indentedLines_some] at longest
          refine ⟨longest.part, ⟨unit, longest.suits⟩, fun other begins alike => ?_⟩
          rcases alike.of_prefix begins with rfl | ⟨own, padded, indented⟩
          · exact List.nil_prefix
          · rw [first, Option.some.injEq] at padded
            exact longest.longest other begins (padded ▸ indented)

/-- An indented block is part of the text from its start on. It is made of whole lines, read one after another,
that are indented alike and not blank, and no more lines could be added to it. -/
theorem indentedBlock_longest (text : Text) (level start : Nat) :
    indentedBlock text level start <+: text.drop start ∧
    ∃ (lines : List Piece) (taken : List Text), ReadsLines text start lines ∧
      IsLongestPrefix (IndentedAlike level) taken (lines.map Piece.text) ∧
      indentedBlock text level start = taken.flatten := by
  have longest := indentedLines_longest level (cutLines (text.drop start))
  refine ⟨?_, linesFrom text start, _, readsLines_linesFrom text start, ?_, rfl⟩
  · obtain ⟨rest, whole⟩ := longest.part
    exact ⟨rest.flatten, by rw [indentedBlock, ← List.flatten_append, whole, flatten_cutLines]⟩
  · rwa [map_text_linesFrom]

example : indentedBlock "  a\n   b\n\tc\n".toList 1 0 = "  a\n   b\n".toList := by decide

end ChoiceScript.Text
