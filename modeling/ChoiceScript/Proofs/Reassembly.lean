import Mathlib.Data.List.DropRight
import ChoiceScript.Proofs.CommandLine
import ChoiceScript.Proofs.Expression.Tiling
import ChoiceScript.Proofs.Multireplace

/-! # Multireplaces are put together again

What stands between the braces of a multireplace is its test and, after that, its options with a bar
between neighbours and white space around each. So nothing but white space, the bars and the parentheses
of the test is dropped. The parentheses are matched in the whole text, and they count only if they close
before the brace does.
-/

namespace ChoiceScript

namespace Text

/-- A span that is found in a text is found in every longer one. -/
theorem spanToClose_append {opening closing : Char} {depth : Nat} {before span : Text}
    (found : spanToClose opening closing depth before = some span) (after : Text) :
    spanToClose opening closing depth (before ++ after) = some span := by
  fun_induction spanToClose opening closing depth before generalizing span with
  | case1 => cases found
  | case2 rest => simpa [spanToClose] using found
  | case3 rest outer ih | case4 depth rest _ ih | case5 depth c rest _ _ ih =>
      obtain ⟨inner, closed, rfl⟩ := Option.map_eq_some_iff.1 found
      simp_all [spanToClose]

/-- A span is found in a text if the text goes on in a way that closes it early enough. -/
theorem spanToClose_append_iff {opening closing : Char} {depth : Nat} {before after span : Text} :
    spanToClose opening closing depth before = some span ↔
      spanToClose opening closing depth (before ++ after) = some span ∧ span.length < before.length := by
  constructor
  · intro found
    exact ⟨spanToClose_append found after, length_lt_of_spanToClose found⟩
  · rintro ⟨found, short⟩
    have cut := spanToClose_take found
    rw [List.take_append_of_le_length short] at cut
    have whole := spanToClose_append cut (before.drop (span.length + 1))
    rwa [List.take_append_drop] at whole

/-- A text has no white space at either end. -/
structure Trimmed (text : Text) : Prop where
  head : ∀ c ∈ text.head?, isBlank c = false
  last : ∀ c ∈ text.getLast?, isBlank c = false

theorem trim_eq_rdropWhile (text : Text) : trim text = (text.dropWhile isBlank).rdropWhile isBlank := rfl

theorem trim_trimmed (text : Text) : (trim text).Trimmed := by
  constructor
  · intro c first
    have part : trim text <+: text.dropWhile isBlank := List.rdropWhile_prefix ..
    have head := List.head?_dropWhile_not isBlank text
    obtain ⟨rest, whole⟩ := part
    cases same : trim text with
    | nil => simp [same] at first
    | cons d others =>
        rw [← whole, same] at head
        simp only [same, List.head?_cons, Option.mem_some_iff] at first
        simpa [first] using head
  · intro c last
    by_cases none : trim text = []
    · simp [none] at last
    · rw [List.getLast?_eq_some_getLast none, Option.mem_some_iff] at last
      rw [← last]
      exact Bool.eq_false_iff.2 (List.rdropWhile_last_not isBlank (text.dropWhile isBlank) none)

/-- What is dropped at the ends of a text is white space. -/
theorem exists_trim (text : Text) : ∃ after, blank after = true ∧
    text = text.takeWhile isBlank ++ trim text ++ after := by
  refine ⟨(text.dropWhile isBlank).rtakeWhile isBlank, ?_, ?_⟩
  · exact List.all_eq_true.2 fun c member => List.mem_rtakeWhile_imp member
  · rw [trim_eq_rdropWhile, List.append_assoc, List.rdropWhile_append_rtakeWhile,
      List.takeWhile_append_dropWhile]

end Text

/-- A piece stands in a text that starts at an offset, with white space around it. It is trimmed, and the
text has no bar. -/
structure Piece.Padded (piece : Piece) (text : Text) (offset : Nat) : Prop where
  parts : ∃ before after, Text.blank before = true ∧ Text.blank after = true ∧
    text = before ++ piece.text ++ after ∧ piece.start = offset + before.length
  trimmed : piece.text.Trimmed
  unbarred : '|' ∉ text

/-- Options make up a text that starts at an offset, with a bar between neighbours and with white space
around each. -/
inductive Barred : Nat → Text → List Piece → Prop where
  | last {offset : Nat} {text : Text} {option : Piece} (padded : option.Padded text offset) :
    Barred offset text [option]
  | bar {offset : Nat} {text rest : Text} {option : Piece} {options : List Piece}
    (padded : option.Padded text offset) (later : Barred (offset + text.length + 1) rest options) :
    Barred offset (text ++ '|' :: rest) (option :: options)

namespace Barred

variable {offset : Nat} {text : Text} {options : List Piece} {option : Piece}

/-- There is one option more than there are bars. -/
theorem length_eq (barred : Barred offset text options) : options.length = text.count '|' + 1 := by
  induction barred with
  | last padded => simp [List.count_eq_zero.2 padded.unbarred]
  | bar padded later ih =>
      rw [List.length_cons, ih, List.count_append, List.count_eq_zero.2 padded.unbarred,
        List.count_cons_self, Nat.zero_add]

theorem trimmed (barred : Barred offset text options) (member : option ∈ options) :
    option.text.Trimmed ∧ '|' ∉ option.text := by
  have here {option : Piece} {text : Text} {offset : Nat} (padded : option.Padded text offset) :
      option.text.Trimmed ∧ '|' ∉ option.text := by
    obtain ⟨before, after, -, -, rfl, -⟩ := padded.parts
    exact ⟨padded.trimmed, fun inside => padded.unbarred (by simp [inside])⟩
  induction barred with
  | last padded =>
      obtain rfl := List.mem_singleton.1 member
      exact here padded
  | bar padded later ih =>
      rcases List.mem_cons.1 member with rfl | further
      · exact here padded
      · exact ih further

theorem le_start (barred : Barred offset text options) (member : option ∈ options) :
    offset ≤ option.start := by
  induction barred with
  | last padded =>
      obtain rfl := List.mem_singleton.1 member
      obtain ⟨before, after, -, -, -, start⟩ := padded.parts
      omega
  | bar padded later ih =>
      rcases List.mem_cons.1 member with rfl | further
      · obtain ⟨before, after, -, -, -, start⟩ := padded.parts
        omega
      · have := ih further
        omega

/-- A bar stands between neighbours. -/
theorem apart (barred : Barred offset text options) : options.Pairwise fun a b => a.stop < b.start := by
  induction barred with
  | last => exact List.pairwise_singleton _ _
  | bar padded later ih =>
      refine .cons (fun other member => ?_) ih
      obtain ⟨before, after, -, -, whole, start⟩ := padded.parts
      have further := later.le_start member
      have long := congrArg List.length whole
      simp only [List.length_append] at long
      simp only [Piece.stop]
      omega

end Barred

namespace Multireplace

theorem padded_trim {text : Text} (unbarred : '|' ∉ text) (offset : Nat) :
    Piece.Padded ⟨Text.trim text,
      offset + if Text.blank text then 0 else (text.takeWhile Text.isBlank).length⟩ text offset := by
  refine ⟨?_, Text.trim_trimmed text, unbarred⟩
  cases empty : Text.blank text with
  | true => exact ⟨[], text, rfl, empty, by simp [Text.trim_eq_nil empty], by simp⟩
  | false =>
      obtain ⟨after, blank, whole⟩ := Text.exists_trim text
      exact ⟨text.takeWhile Text.isBlank, after, List.all_takeWhile, blank, whole, by simp⟩

theorem trimPieces_barred {pieces : List Text} (some : pieces ≠ [])
    (unbarred : ∀ piece ∈ pieces, '|' ∉ piece) (offset : Nat) :
    Barred offset (Text.joinWith '|' pieces) (trimPieces offset pieces) := by
  induction pieces generalizing offset with
  | nil => exact absurd rfl some
  | cons piece pieces ih =>
      have padded := padded_trim (unbarred piece List.mem_cons_self) offset
      cases pieces with
      | nil => exact .last padded
      | cons next others =>
          have later := ih (List.cons_ne_nil _ _)
            (fun piece member => unbarred piece (List.mem_cons_of_mem _ member))
          exact .bar padded (later _)

/-- The test at the head of the contents of a multireplace, which stand between two offsets of a text, and
the offset where the options begin. -/
inductive Tested (text : Text) (start stop : Nat) : Piece → Nat → Prop where
  /-- Without an open parenthesis the test is the longest word. -/
  | word (plain : text[start]? ≠ some '(') :
    Tested text start stop ⟨(text.drop start).takeWhile Text.isWord, start⟩
      (start + ((text.drop start).takeWhile Text.isWord).length)
  /-- The parentheses close before the brace, and the options begin behind them. -/
  | group {inner : Text} (opens : text[start]? = some '(')
    (span : Text.matchingSpan text '(' ')' (start + 1) = some inner)
    (early : start + 1 + inner.length < stop) :
    Tested text start stop ⟨inner, start + 1⟩ (start + (inner.length + 2))
  /-- The parentheses close behind the brace or nowhere, and there is no room for options. -/
  | unclosed (opens : text[start]? = some '(')
    (late : ∀ inner, Text.matchingSpan text '(' ')' (start + 1) = some inner →
      stop ≤ start + 1 + inner.length) :
    Tested text start stop ⟨(text.take stop).drop (start + 1), start + 1⟩ stop

/-- Options fill a text that starts at an offset. There are none if it is blank, and else one more than it
has bars. -/
def Fill (options : List Piece) (offset : Nat) (text : Text) : Prop :=
  if Text.blank text then options = []
  else Barred offset text options ∧ options.length = text.count '|' + 1

/-- The options of a text fill it. -/
theorem optionsOf_fill (offset : Nat) (text : Text) : Fill (optionsOf offset text) offset text := by
  unfold Fill optionsOf
  cases Text.blank text with
  | true => rfl
  | false =>
      have barred := trimPieces_barred (Text.splitOn_ne_nil '|' text)
        (fun piece member inside => (Text.of_mem_splitOn member inside).1 rfl) offset
      rw [Text.joinWith_splitOn] at barred
      exact ⟨barred, barred.length_eq⟩

namespace Fill

variable {options : List Piece} {offset : Nat} {text : Text}

theorem barred (fill : Fill options offset text) : options = [] ∨ Barred offset text options := by
  unfold Fill at fill
  split at fill
  · exact .inl fill
  · exact .inr fill.1

theorem rising (fill : Fill options offset text) : options.Pairwise fun a b => a.stop < b.start := by
  rcases fill.barred with rfl | barred
  · exact .nil
  · exact barred.apart

theorem trimmed (fill : Fill options offset text) {option : Piece} (member : option ∈ options) :
    option.text.Trimmed ∧ '|' ∉ option.text := by
  rcases fill.barred with rfl | barred
  · cases member
  · exact barred.trimmed member

end Fill

/-- A multireplace is put together again out of its parts. Its brace stands right before it stops. Test and
options stand at their offsets between `start` and the brace, one after another. The options and the bars
make up what stands behind the test, unless nothing but white space stands there. -/
structure Rebuilds (multireplace : Multireplace) (text : Text) (start : Nat) : Prop where
  span : Text.matchingSpan text '{' '}' start = some multireplace.text
  brace : start < multireplace.stop ∧ text[multireplace.stop - 1]? = some '}'
  contents : (text.take (multireplace.stop - 1)).drop start = multireplace.text
  slice : ∀ piece ∈ multireplace.test :: multireplace.options,
    (text.take piece.stop).drop piece.start = piece.text
  inside : ∀ piece ∈ multireplace.test :: multireplace.options,
    start ≤ piece.start ∧ piece.stop ≤ multireplace.stop - 1
  apart : (multireplace.test :: multireplace.options).Pairwise fun a b => a.stop ≤ b.start
  rising : multireplace.options.Pairwise fun a b => a.stop < b.start
  trimmed : ∀ option ∈ multireplace.options, option.text.Trimmed ∧ '|' ∉ option.text
  filled : ∃ behind, Tested text start (multireplace.stop - 1) multireplace.test behind ∧
    Fill multireplace.options behind ((text.take (multireplace.stop - 1)).drop behind)

theorem Placed.slice {multireplace : Multireplace} {text : Text} {start : Nat} {piece : Piece}
    (placed : multireplace.Placed text start)
    (member : piece ∈ multireplace.test :: multireplace.options) :
    (text.take piece.stop).drop piece.start = piece.text := by
  have part : piece.text <+: text.drop piece.start := by
    rcases List.mem_cons.1 member with rfl | option
    · exact placed.test.part
    · exact (placed.options piece option).1.part
  rw [List.drop_take, Piece.stop, Nat.add_sub_cancel_left]
  exact (List.prefix_iff_eq_take.1 part).symm

theorem testOf_plain {contents : Text} (plain : contents.head? ≠ some '(') (start : Nat) :
    testOf contents start = some (⟨contents.takeWhile Text.isWord, start⟩,
      (contents.takeWhile Text.isWord).length) := by
  unfold testOf
  split
  · exact absurd rfl plain
  · rfl

section Contents

variable {contents tail text : Text} {start : Nat} (whole : text.drop start = contents ++ '}' :: tail)

include whole

/-- What stands in a text up to the closing brace is what is left of the contents. -/
theorem drop_contents (skipped : Nat) :
    (text.take (start + contents.length)).drop (start + skipped) = contents.drop skipped := by
  rw [← List.drop_drop, List.drop_take, Nat.add_sub_cancel_left, whole, List.take_left]

/-- The test is cut out of the contents alone, but it is the one that the whole text has there. -/
theorem tested_of_testOf {test : Piece} {length : Nat} (found : testOf contents start = some (test, length)) :
    Tested text start (start + contents.length) test (start + length) := by
  have first : text[start]? = (contents ++ '}' :: tail).head? := by
    rw [← whole, List.head?_drop]
  by_cases opens : contents.head? = some '('
  · obtain ⟨rest, rfl⟩ : ∃ rest, contents = '(' :: rest := List.head?_eq_some_iff.1 opens
    obtain ⟨inner, span, same⟩ := Option.map_eq_some_iff.1 found
    obtain ⟨rfl, rfl⟩ := Prod.mk.inj same
    obtain ⟨later, short⟩ : Text.spanToClose '(' ')' 0 (rest ++ '}' :: tail) = some inner ∧
        inner.length < rest.length := Text.spanToClose_append_iff.1 span
    have closed : Text.matchingSpan text '(' ')' (start + 1) = some inner := by
      rw [Text.matchingSpan, ← List.drop_drop, whole]
      exact later
    refine .group (by rw [first]; rfl) closed ?_
    simp only [List.length_cons]
    omega
  · rw [testOf_plain opens, Option.some.injEq, Prod.mk.injEq] at found
    obtain ⟨rfl, rfl⟩ := found
    have word : (text.drop start).takeWhile Text.isWord = contents.takeWhile Text.isWord := by
      rw [whole]
      exact Text.takeWhile_append_stop (by decide) contents tail
    rw [← word]
    refine .word ?_
    rw [first]
    cases contents with
    | nil => simp
    | cons c rest => exact opens

theorem unclosed_of_testOf (missing : testOf contents start = none) :
    Tested text start (start + contents.length) ⟨contents.drop 1, start + 1⟩ (start + contents.length) := by
  by_cases opens : contents.head? = some '('
  · obtain ⟨rest, rfl⟩ : ∃ rest, contents = '(' :: rest := List.head?_eq_some_iff.1 opens
    have open_ : text[start]? = some '(' := by rw [← List.head?_drop, whole]; rfl
    rw [← drop_contents whole 1]
    refine .unclosed open_ fun inner span => Nat.le_of_not_lt fun early => ?_
    rw [Text.matchingSpan, ← List.drop_drop, whole] at span
    have closed : Text.spanToClose '(' ')' 0 rest = some inner :=
      Text.spanToClose_append_iff.2 ⟨span, by simp only [List.length_cons] at early; omega⟩
    simp [testOf, closed] at missing
  · rw [testOf_plain opens] at missing
    cases missing

/-- The options fill what stands behind the test. -/
theorem ofContents_filled : ∃ behind,
    Tested text start (start + contents.length) (ofContents contents start).test behind ∧
      Fill (ofContents contents start).options behind
        ((text.take (start + contents.length)).drop behind) := by
  unfold ofContents
  cases found : testOf contents start with
  | some test =>
      obtain ⟨test, length⟩ := test
      refine ⟨start + length, tested_of_testOf whole found, ?_⟩
      rw [drop_contents whole]
      exact optionsOf_fill _ _
  | none =>
      refine ⟨start + contents.length, unclosed_of_testOf whole found, ?_⟩
      rw [drop_contents whole, List.drop_length]
      rfl

end Contents

theorem ofContents_frame (contents : Text) (start : Nat) :
    (ofContents contents start).text = contents ∧
      (ofContents contents start).stop = start + contents.length + 1 := by
  unfold ofContents
  cases testOf contents start <;> exact ⟨rfl, rfl⟩

/-- A multireplace is read just where its brace is closed, and then it is put together again out of its
parts: the test, the options with their offsets, the bars, and the white space that was dropped. -/
theorem read?_rebuilds (text : Text) (start : Nat) :
    (read? text start = none ↔ Text.matchingSpan text '{' '}' start = none) ∧
      ∀ multireplace, read? text start = some multireplace → multireplace.Rebuilds text start := by
  refine ⟨Option.map_eq_none_iff, fun multireplace found => ?_⟩
  have placed := placed_of_read? found
  have ordered := inOrder_of_read? found
  obtain ⟨contents, span, rfl⟩ := Option.map_eq_some_iff.1 found
  obtain ⟨tail, whole⟩ := Text.eq_append_of_spanToClose span
  obtain ⟨same, stop⟩ := ofContents_frame contents start
  obtain ⟨behind, tested, fill⟩ := ofContents_filled whole
  have brace : text[start + contents.length]? = some '}' := by
    rw [← List.getElem?_drop, whole, List.getElem?_append_right (Nat.le_refl _), Nat.sub_self]
    rfl
  have before : (ofContents contents start).stop - 1 = start + contents.length := by omega
  refine ⟨by rwa [same], ⟨by omega, by rwa [before]⟩, ?_, fun piece => placed.slice, fun piece member => ?_,
    .cons ordered.test_stop ordered.apart, fill.rising, fun option => fill.trimmed, behind, ?_⟩
  · rw [before, same]
    exact drop_contents whole 0
  · rcases List.mem_cons.1 member with rfl | option
    · exact ⟨ordered.start_le, Nat.le_sub_one_of_lt placed.test_stop⟩
    · have after := ordered.test_stop piece option
      have := ordered.start_le
      have := placed.options piece option
      simp only [Piece.stop] at *
      omega
  · rw [before]
    exact ⟨tested, fill⟩

/-- A test in parentheses, an option with white space around it, one that is blank, and more text. -/
def spacedChoice : Text := "@\x7b(a+(b)) \tyes |  | no\x7d)".toList

theorem spacedChoice_rebuilds :
    read? spacedChoice 2 = some ⟨⟨"a+(b)".toList, 3⟩,
      [⟨"yes".toList, 11⟩, ⟨[], 16⟩, ⟨"no".toList, 20⟩], "(a+(b)) \tyes |  | no".toList, 23⟩ ∧
    Rebuilds ⟨⟨"a+(b)".toList, 3⟩, [⟨"yes".toList, 11⟩, ⟨[], 16⟩, ⟨"no".toList, 20⟩],
      "(a+(b)) \tyes |  | no".toList, 23⟩ spacedChoice 2 := by
  have read : read? spacedChoice 2 = some ⟨⟨"a+(b)".toList, 3⟩,
      [⟨"yes".toList, 11⟩, ⟨[], 16⟩, ⟨"no".toList, 20⟩], "(a+(b)) \tyes |  | no".toList, 23⟩ := by
    decide +kernel
  exact ⟨read, (read?_rebuilds spacedChoice 2).2 _ read⟩

end Multireplace

end ChoiceScript
