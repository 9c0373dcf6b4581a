import ChoiceScript.Proofs.CommandLine
import Mathlib.Data.List.Basic

/-! # The line of a command

The command of a line is read off what stands before an offset in the line, and that is enough to tell a
comment: the command and its padding stand before every character that they do not hold. They also stand
before a star that has more than padding before it.
-/

namespace ChoiceScript

namespace Text

/-- The line of an offset is a comment: the command stands at the start of the line, after padding. -/
def InComment (text : Text) (index : Nat) : Prop :=
  ∃ before padding after, text = before ++ (padding ++ "*comment".toList ++ after) ∧
    (∀ c ∈ before.getLast?, c = '\n') ∧ before.length ≤ index ∧
    '\n' ∉ (text.take index).drop before.length ∧
    (∀ c ∈ padding, isPadding c = true) ∧ ∀ c ∈ after.head?, isWord c = false

/-- The line of an offset starts with a command, after padding. -/
def LineStartsWith (text name : Text) (index : Nat) : Prop :=
  ∃ before padding after, text = before ++ (padding ++ '*' :: name ++ after) ∧
    (∀ c ∈ before.getLast?, c = '\n') ∧ before.length ≤ index ∧
    '\n' ∉ (text.take index).drop before.length ∧
    (∀ c ∈ padding, isPadding c = true) ∧ ∀ c ∈ after.head?, isWord c = false

theorem inComment_iff {text : Text} {index : Nat} :
    InComment text index ↔ LineStartsWith text "comment".toList index := Iff.rfl

/-- Every text ends in a line that holds no line feed. -/
theorem exists_lastLine (text : Text) : ∃ before line, text = before ++ line ∧
    (∀ c ∈ before.getLast?, c = '\n') ∧ '\n' ∉ line := by
  obtain ⟨line, before, parts, plain, stops⟩ := exists_parts (· ≠ '\n') text.reverse
  refine ⟨before.reverse, line.reverse, ?_, ?_, ?_⟩
  · rw [← List.reverse_append, ← parts, List.reverse_reverse]
  · simpa using stops
  · intro member
    simpa using plain '\n' (List.mem_reverse.1 member)

/-- A line begins behind the last line feed of what is looked at. -/
theorem lineBegin_of_take {text before line : Text} {index : Nat}
    (cut : text.take (index + 1) = before ++ line) (starts : ∀ c ∈ before.getLast?, c = '\n')
    (plain : '\n' ∉ line) : lineBegin text index = before.length := by
  have back : (before ++ line).reverse.takeWhile (· ≠ '\n') = line.reverse := by
    rw [List.reverse_append]
    apply takeWhile_exact
    · intro c member
      have inside : c ≠ '\n' := fun same => plain (same ▸ List.mem_reverse.1 member)
      simpa using inside
    · simpa using starts
  simp only [lineBegin, cut, back, List.length_append, List.length_reverse]
  omega

theorem lineBegin_append {before line after : Text} (starts : ∀ c ∈ before.getLast?, c = '\n')
    (plain : '\n' ∉ line) {index : Nat} (last : index + 1 = (before ++ line).length) :
    lineBegin (before ++ line ++ after) index = before.length :=
  lineBegin_of_take (by rw [last, List.take_left]) starts plain

/-- The command of a line is read off what stands before an offset in the line. -/
theorem lineCommand_append_iff {before line after : Text} {c : Char} {name : String}
    (starts : ∀ c ∈ before.getLast?, c = '\n') (plain : '\n' ∉ line) (solid : c ≠ '\n')
    (given : name ≠ "") :
    lineCommand (before ++ line ++ c :: after) (before ++ line).length = name ↔
      (CommandLine.read? line).map (·.name) = some name.toList := by
  have plainToo : '\n' ∉ line ++ [c] := by simp [plain, solid.symm]
  have begins : lineBegin (before ++ line ++ c :: after) (before ++ line).length = before.length := by
    have parts : before ++ line ++ c :: after = before ++ (line ++ [c]) ++ after := by simp
    rw [parts]
    exact lineBegin_append starts plainToo (by simp; omega)
  rw [lineCommand, begins, List.take_left, List.drop_left]
  cases CommandLine.read? line with
  | none => simpa using given.symm
  | some command => simp [String.ext_iff]

/-- A character that a prefix does not hold stands behind the prefix. -/
theorem exists_append_of_not_mem {before after line rest : Text} {c : Char}
    (cut : line ++ c :: after = before ++ rest) (apart : c ∉ before) :
    ∃ between, line = before ++ between ∧ rest = between ++ c :: after := by
  cases List.append_eq_append_iff.1 cut with
  | inr further => exact further
  | inl short =>
      obtain ⟨missing, rfl, tail⟩ := short
      cases missing with
      | nil => exact ⟨[], by simp, by simpa using tail.symm⟩
      | cons first missing =>
          obtain ⟨rfl, -⟩ := List.cons.inj tail
          exact absurd (by simp) apart

/-- The command of a line stands before what no command holds: before any character that is neither padding
nor part of a word, unless it is the star of the line's own command. -/
theorem lineCommand_iff {head after : Text} {c : Char} {name : String} (named : name ≠ "")
    (word : ∀ d ∈ name.toList, isWord d = true) (noWord : isWord c = false) (solid : c ≠ '\n')
    (bare : isPadding c = false) (further : c = '*' → ∀ before line, head = before ++ line →
      (∀ d ∈ before.getLast?, d = '\n') → ∃ d ∈ line, isPadding d = false) :
    lineCommand (head ++ c :: after) head.length = name ↔
      LineStartsWith (head ++ c :: after) name.toList head.length := by
  have given : name.toList ≠ [] := fun empty => named (String.toList_inj.1 empty)
  constructor
  · intro found
    obtain ⟨before, line, rfl, starts, plain⟩ := exists_lastLine head
    obtain ⟨padding, behind, rfl, padded, stops⟩ := (CommandLine.name_of_read?_iff given word).1
      ((lineCommand_append_iff starts plain solid named).1 found)
    refine ⟨before, padding, behind ++ c :: after, by simp, starts, by simp, ?_, padded, ?_⟩
    · rwa [List.take_left, List.drop_left]
    · cases behind with
      | nil => simpa using noWord
      | cons first behind => exact stops
  · rintro ⟨before, padding, behind, parts, starts, le, plain, padded, stops⟩
    rw [List.take_left] at plain
    -- the offset is in the line that the command starts, so the line is cut at the character
    obtain ⟨line, rfl⟩ : before <+: head :=
      List.prefix_of_prefix_length_le ⟨_, parts.symm⟩ (List.prefix_append _ _) le
    rw [List.drop_left] at plain
    have cut : line ++ c :: after = padding ++ '*' :: (name.toList ++ behind) := by
      simpa using parts
    have outside : c ∉ padding := fun member => by simp [padded c member] at bare
    obtain ⟨between, rfl, rest⟩ := exists_append_of_not_mem cut outside
    cases between with
    | nil =>
        -- the character is the star of the line's own command
        obtain ⟨d, member, unpadded⟩ := further (List.cons.inj rest).1.symm before _ rfl starts
        simp [padded d (by simpa using member)] at unpadded
    | cons star between =>
        obtain ⟨rfl, behindStar⟩ := List.cons.inj rest
        have apart : c ∉ name.toList := fun member => by simp [word c member] at noWord
        obtain ⟨between, rfl, rfl⟩ := exists_append_of_not_mem behindStar.symm apart
        apply (lineCommand_append_iff starts plain solid named).2
        apply (CommandLine.name_of_read?_iff given word).2
        refine ⟨padding, between, rfl, padded, fun d first => stops d ?_⟩
        rw [List.head?_append, Option.mem_def.1 first]
        rfl

/-- A character that the command and its padding do not hold is in a comment just where the command
stands before it in the line. -/
theorem lineCommand_eq_comment_iff {head after : Text} {c : Char} (noWord : isWord c = false)
    (other : c ≠ '*') (solid : c ≠ '\n') (bare : isPadding c = false) :
    lineCommand (head ++ c :: after) head.length = "comment" ↔
      InComment (head ++ c :: after) head.length := by
  have word : ∀ c ∈ "comment".toList, isWord c = true :=
    List.all_eq_true.1 (show "comment".toList.all isWord = true by decide)
  exact lineCommand_iff (by decide) word noWord solid bare fun star => absurd star other

end Text

end ChoiceScript
