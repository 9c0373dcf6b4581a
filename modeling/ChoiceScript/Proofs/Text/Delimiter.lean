import Mathlib.Order.Bounds.Basic
import ChoiceScript.Proofs.Reassembly

/-! # Delimiters are matched by counting

A text is covered if no prefix of it has more close delimiters than open ones, those that are open
before it included. A span is covered and has as many of the one as of the other, and it ends where the
close delimiters would outnumber the open ones for the first time. So a group that opens in a span
closes in it.
-/

namespace ChoiceScript.Text

variable {opening closing : Char} {depth : Nat} {text span : Text}

/-- No prefix of the text has more close delimiters than there are open ones, of which `depth` stand
before the text. -/
def Covered (opening closing : Char) (depth : Nat) (text : Text) : Prop :=
  ∀ before, before <+: text → before.count closing ≤ before.count opening + depth

/-- The text closes the `depth` delimiters that are open before it and all that it opens, each after
it is opened. -/
structure Balanced (opening closing : Char) (depth : Nat) (text : Text) : Prop where
  even : text.count closing = text.count opening + depth
  covered : Covered opening closing depth text

theorem covered_nil : Covered opening closing depth [] := by
  intro before part
  simp [List.prefix_nil.1 part]

/-- What a text is covered by depends on its first character, and else on the rest alone. -/
theorem covered_cons (distinct : opening ≠ closing) {c : Char} :
    Covered opening closing depth (c :: text) ↔
      if c = closing then ∃ outer, depth = outer + 1 ∧ Covered opening closing outer text
      else if c = opening then Covered opening closing (depth + 1) text
      else Covered opening closing depth text := by
  have split : Covered opening closing depth (c :: text) ↔ ∀ before, before <+: text →
      (c :: before).count closing ≤ (c :: before).count opening + depth := by
    refine ⟨fun covered before part => covered _ (List.cons_prefix_cons.2 ⟨rfl, part⟩), ?_⟩
    intro covered before part
    cases before with
    | nil => simp
    | cons first rest =>
        obtain ⟨rfl, more⟩ := List.cons_prefix_cons.1 part
        exact covered rest more
  rw [split]
  split_ifs with closes opens
  · subst closes
    simp only [List.count_cons_self, List.count_cons_of_ne distinct.symm]
    constructor
    · intro covered
      have one := covered [] List.nil_prefix
      simp only [List.count_nil] at one
      refine ⟨depth - 1, by omega, fun before part => ?_⟩
      have := covered before part
      omega
    · rintro ⟨outer, rfl, covered⟩ before part
      have := covered before part
      omega
  · subst opens
    simp only [List.count_cons_self, List.count_cons_of_ne distinct]
    refine forall₂_congr fun before part => ?_
    omega
  · simp only [List.count_cons_of_ne closes, List.count_cons_of_ne opens, Covered]

theorem balanced_nil : Balanced opening closing depth [] ↔ depth = 0 := by
  refine ⟨fun balanced => by simpa using balanced.even.symm, ?_⟩
  rintro rfl
  exact ⟨rfl, covered_nil⟩

theorem balanced_cons (distinct : opening ≠ closing) {c : Char} :
    Balanced opening closing depth (c :: text) ↔
      if c = closing then ∃ outer, depth = outer + 1 ∧ Balanced opening closing outer text
      else if c = opening then Balanced opening closing (depth + 1) text
      else Balanced opening closing depth text := by
  have parts {depth : Nat} {text : Text} : Balanced opening closing depth text ↔
      text.count closing = text.count opening + depth ∧ Covered opening closing depth text :=
    ⟨fun balanced => ⟨balanced.even, balanced.covered⟩, fun both => ⟨both.1, both.2⟩⟩
  simp only [parts, covered_cons distinct]
  split_ifs with closes opens
  · subst closes
    simp only [List.count_cons_self, List.count_cons_of_ne distinct.symm]
    constructor
    · rintro ⟨even, outer, rfl, covered⟩
      exact ⟨outer, rfl, by omega, covered⟩
    · rintro ⟨outer, rfl, even, covered⟩
      exact ⟨by omega, outer, rfl, covered⟩
  · subst opens
    simp only [List.count_cons_self, List.count_cons_of_ne distinct]
    refine and_congr_left' ?_
    omega
  · simp only [List.count_cons_of_ne closes, List.count_cons_of_ne opens]

theorem balanced_of_spanToClose (distinct : opening ≠ closing)
    (found : spanToClose opening closing depth text = some span) :
    Balanced opening closing depth span := by
  fun_induction spanToClose opening closing depth text generalizing span with
  | case1 => cases found
  | case2 rest =>
      obtain rfl := Option.some.inj found
      exact balanced_nil.2 rfl
  | case3 rest outer ih =>
      obtain ⟨inner, closed, rfl⟩ := Option.map_eq_some_iff.1 found
      rw [balanced_cons distinct, if_pos rfl]
      exact ⟨outer, rfl, ih closed⟩
  | case4 depth rest noClose ih =>
      obtain ⟨inner, closed, rfl⟩ := Option.map_eq_some_iff.1 found
      rw [balanced_cons distinct, if_neg noClose, if_pos rfl]
      exact ih closed
  | case5 depth c rest noClose noOpen ih =>
      obtain ⟨inner, closed, rfl⟩ := Option.map_eq_some_iff.1 found
      rw [balanced_cons distinct, if_neg noClose, if_neg noOpen]
      exact ih closed

/-- There is no span in a text just where all its close delimiters close what is open. -/
theorem spanToClose_eq_none_iff (distinct : opening ≠ closing) :
    spanToClose opening closing depth text = none ↔ Covered opening closing depth text := by
  fun_induction spanToClose opening closing depth text with
  | case1 => exact iff_of_true rfl covered_nil
  | case2 rest => simp [covered_cons distinct]
  | case3 rest outer ih => simp [covered_cons distinct, ih]
  | case4 depth rest noClose ih => simp [covered_cons distinct, ih, distinct]
  | case5 depth c rest noClose noOpen ih => simp [covered_cons distinct, ih, noClose, noOpen]

/-- A group that opens in a balanced text closes in it. -/
theorem Balanced.exists_inner (distinct : opening ≠ closing) {before after : Text}
    (balanced : Balanced opening closing 0 (before ++ opening :: after)) :
    ∃ inner, Text.spanToClose opening closing 0 after = some inner := by
  -- if it did not, the text as a whole would have more open delimiters than close ones
  by_contra unclosed
  have none : Text.spanToClose opening closing 0 after = none := by
    simpa [Option.eq_none_iff_forall_ne_some] using unclosed
  have rest := (spanToClose_eq_none_iff distinct).1 none after List.prefix_rfl
  have start := balanced.covered before (List.prefix_append _ _)
  have even := balanced.even
  simp only [List.count_append, List.count_cons_self, List.count_cons_of_ne distinct] at even
  omega

/-- A text is covered if each of its characters leaves it so. -/
theorem covered_iff : Covered opening closing depth text ↔ ∀ length < text.length,
    (text.take (length + 1)).count closing ≤ (text.take (length + 1)).count opening + depth := by
  refine ⟨fun covered length _ => covered _ (List.take_prefix _ _), fun each before part => ?_⟩
  cases long : before.length with
  | zero => simp [List.length_eq_zero_iff.1 long]
  | succ length =>
      have fits := part.length_le
      rw [List.prefix_iff_eq_take.1 part, long]
      exact each length (by omega)

/-- At an offset the close delimiters from `start` on outnumber the open ones: there are more of them
up to it, with the one that may stand at it. -/
def Outnumbered (text : Text) (opening closing : Char) (start offset : Nat) : Prop :=
  start ≤ offset ∧ offset < text.length ∧
    ((text.take (offset + 1)).drop start).count opening <
      ((text.take (offset + 1)).drop start).count closing

section Matching

variable {start : Nat}

theorem outnumbered_iff {length : Nat} : Outnumbered text opening closing start (start + length) ↔
    length < (text.drop start).length ∧ ((text.drop start).take (length + 1)).count opening <
      ((text.drop start).take (length + 1)).count closing := by
  have cut : (text.take (start + length + 1)).drop start = (text.drop start).take (length + 1) := by
    rw [List.drop_take, Nat.add_assoc, Nat.add_sub_cancel_left]
  rw [Outnumbered, cut, List.length_drop]
  refine ⟨fun ⟨_, inside, more⟩ => ⟨by omega, more⟩, fun ⟨inside, more⟩ => ⟨by omega, by omega, more⟩⟩

/-- A text is covered from an offset on if the close delimiters are outnumbered nowhere. -/
theorem covered_drop_iff : Covered opening closing 0 (text.drop start) ↔
    ∀ offset, ¬ Outnumbered text opening closing start offset := by
  rw [covered_iff]
  constructor
  · intro each offset more
    obtain ⟨length, rfl⟩ := Nat.exists_eq_add_of_le more.1
    obtain ⟨inside, more⟩ := outnumbered_iff.1 more
    have := each length inside
    omega
  · intro never length inside
    refine Nat.le_of_not_lt fun more => never (start + length) ?_
    exact outnumbered_iff.2 ⟨inside, by omega⟩

/-- What is balanced in front of a close delimiter ends at the first offset where the close delimiters
outnumber the open ones. -/
theorem isLeast_outnumbered (distinct : opening ≠ closing) {tail : Text}
    (balanced : Balanced opening closing 0 span) (whole : text.drop start = span ++ closing :: tail) :
    IsLeast {offset | Outnumbered text opening closing start offset} (start + span.length) := by
  constructor
  · refine outnumbered_iff.2 ⟨by simp [whole], ?_⟩
    have even := balanced.even
    rw [whole, List.take_append, List.take_of_length_le (Nat.le_succ _), Nat.add_sub_cancel_left]
    simp only [List.take_succ_cons, List.take_zero, List.count_append, List.count_singleton_self,
      List.count_singleton, beq_iff_eq, distinct.symm, if_false]
    omega
  · intro offset more
    obtain ⟨length, rfl⟩ := Nat.exists_eq_add_of_le more.1
    obtain ⟨-, more⟩ := outnumbered_iff.1 more
    refine Nat.add_le_add_left (Nat.le_of_not_lt fun early => ?_) start
    have short : length + 1 ≤ span.length := early
    rw [whole, List.take_append_of_le_length short] at more
    have := balanced.covered _ (List.take_prefix (length + 1) span)
    omega

/-- What stands before the first offset where the close delimiters outnumber the open ones is the span. -/
theorem matchingSpan_of_isLeast (distinct : opening ≠ closing) {stop : Nat}
    (least : IsLeast {offset | Outnumbered text opening closing start offset} stop) :
    matchingSpan text opening closing start = some ((text.take stop).drop start) := by
  cases found : matchingSpan text opening closing start with
  | none =>
      have never := covered_drop_iff.1 ((spanToClose_eq_none_iff distinct).1 found)
      exact absurd least.1 (never stop)
  | some span =>
      obtain ⟨tail, whole⟩ := eq_append_of_spanToClose found
      have first := isLeast_outnumbered distinct (balanced_of_spanToClose distinct found) whole
      rw [least.unique first, List.drop_take, whole, Nat.add_sub_cancel_left, List.take_left]

/-- A group that opens in a span closes in it. -/
theorem matchingSpan_nested (distinct : opening ≠ closing)
    (found : matchingSpan text opening closing start = some span) {place : Nat}
    (opens : span[place]? = some opening) : ∃ inner,
      matchingSpan text opening closing (start + place + 1) = some inner ∧
        span[place + 1 + inner.length]? = some closing := by
  obtain ⟨inside, here⟩ := List.getElem?_eq_some_iff.1 opens
  have split : span = span.take place ++ opening :: span.drop (place + 1) := by
    rw [← here, List.getElem_cons_drop, List.take_append_drop]
  have balanced := balanced_of_spanToClose distinct found
  obtain ⟨inner, closed⟩ := (split ▸ balanced).exists_inner distinct
  obtain ⟨rest, after⟩ := eq_append_of_spanToClose closed
  obtain ⟨tail, whole⟩ := eq_append_of_spanToClose found
  refine ⟨inner, ?_, ?_⟩
  · rw [matchingSpan, Nat.add_assoc, ← List.drop_drop, whole, List.drop_append_of_le_length inside]
    exact spanToClose_append closed _
  · rw [← List.getElem?_drop, after, List.getElem?_append_right (Nat.le_refl _), Nat.sub_self]
    rfl

end Matching

/-- Between two different delimiters a span ends at the first offset where the close ones outnumber the
open ones, and there is none if they never do. It holds as many of the one as of the other, no prefix of
it holds more close delimiters than open ones, and every group that opens in it closes in it. -/
theorem matchingSpan_counts (text : Text) {opening closing : Char} (distinct : opening ≠ closing)
    (start : Nat) :
    (∀ span, matchingSpan text opening closing start = some span ↔ ∃ stop,
      IsLeast {offset | Outnumbered text opening closing start offset} stop ∧
        span = (text.take stop).drop start) ∧
    (matchingSpan text opening closing start = none ↔
      ∀ offset, ¬ Outnumbered text opening closing start offset) ∧
    ∀ span, matchingSpan text opening closing start = some span →
      span.count closing = span.count opening ∧
      (∀ before, before <+: span → before.count closing ≤ before.count opening) ∧
      ∀ place, span[place]? = some opening → ∃ inner,
        matchingSpan text opening closing (start + place + 1) = some inner ∧
          span[place + 1 + inner.length]? = some closing := by
  refine ⟨fun span => ⟨fun found => ?_, ?_⟩, ?_, fun span found => ⟨?_, ?_, ?_⟩⟩
  · obtain ⟨tail, whole⟩ := eq_append_of_spanToClose found
    refine ⟨start + span.length,
      isLeast_outnumbered distinct (balanced_of_spanToClose distinct found) whole, ?_⟩
    rw [List.drop_take, whole, Nat.add_sub_cancel_left, List.take_left]
  · rintro ⟨stop, least, rfl⟩
    exact matchingSpan_of_isLeast distinct least
  · exact (spanToClose_eq_none_iff distinct).trans covered_drop_iff
  · exact (balanced_of_spanToClose distinct found).even
  · exact (balanced_of_spanToClose distinct found).covered
  · exact fun place => matchingSpan_nested distinct found

/-- Two groups, one in the other, and a close delimiter without an open one. -/
def groups : Text := "(a (b)) c) d".toList

theorem groups_counted : '(' ≠ ')' ∧
    (∃ stop, IsLeast {offset | Outnumbered groups '(' ')' 1 offset} stop ∧
      "a (b)".toList = (groups.take stop).drop 1) ∧
    (∀ offset, ¬ Outnumbered groups '(' ')' 10 offset) ∧
    ("a (b)".toList.count ')' = "a (b)".toList.count '(') ∧
    ∃ inner, matchingSpan groups '(' ')' 4 = some inner ∧
      "a (b)".toList[3 + inner.length]? = some ')' := by
  have distinct : '(' ≠ ')' := by decide
  obtain ⟨first, -, spans⟩ := matchingSpan_counts groups distinct 1
  obtain ⟨-, none, -⟩ := matchingSpan_counts groups distinct 10
  have found : matchingSpan groups '(' ')' 1 = some "a (b)".toList := by decide
  obtain ⟨even, -, nested⟩ := spans _ found
  exact ⟨distinct, (first _).1 found, none.1 (by decide), even, nested 2 (by decide)⟩

end ChoiceScript.Text
