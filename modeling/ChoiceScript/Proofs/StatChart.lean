import Mathlib.Data.List.Pairwise
import ChoiceScript.Proofs.CommandLine
import ChoiceScript.StatChart

/-! # The lines of a stat chart

A line of a stat chart is padding, a word, and what more padding parts from it, up to and including the
end of the line. A chart is read from line to line. It ends where no such line begins, and at a line that
is padded in another way than the first. A line that owns a block is followed by what stands behind the
block, so no line that is looked at starts in one.
-/

namespace ChoiceScript

namespace StatLine

/-- A line begins with padding, behind which stands something other than white space. -/
def Begins (text : Text) : Prop :=
  ∃ padding c after, text = padding ++ c :: after ∧ padding ≠ [] ∧
    (∀ d ∈ padding, Text.isPadding d = true) ∧ Text.isBlank c = false

/-- The end of a line, or nothing where no line ends. -/
def Terminates (terminator after : Text) : Prop :=
  terminator = ['\r', '\n'] ∨ terminator = ['\n'] ∨
    terminator = [] ∧ ¬ ['\n'] <+: after ∧ ¬ ['\r', '\n'] <+: after

/-- A text starts with a line: padding, a word, if more padding follows that and the rest of the line, and
the end of the line if it stands there. No part could be longer. -/
structure Heads (line : StatLine) (text : Text) : Prop where
  indented : line.padding ≠ []
  padding : ∀ c ∈ line.padding, Text.isPadding c = true
  worded : line.word ≠ []
  word : ∀ c ∈ line.word, Text.isBlank c = false
  spacing : ∀ c ∈ line.spacing, Text.isPadding c = true
  rest : ∀ c ∈ line.rest, CommandLine.endsLine c = false
  bare : line.spacing = [] → line.rest = []
  cut : ∃ after,
    text = line.padding ++ (line.word ++ (line.spacing ++ (line.rest ++ (line.terminator ++ after)))) ∧
    (∀ c ∈ (line.spacing ++ (line.rest ++ (line.terminator ++ after))).head?, Text.isBlank c = true) ∧
    (∀ c ∈ (line.rest ++ (line.terminator ++ after)).head?, Text.isPadding c = false) ∧
    (line.spacing ≠ [] → ∀ c ∈ (line.terminator ++ after).head?, CommandLine.endsLine c = true) ∧
    Terminates line.terminator after

variable {text : Text} {line : StatLine}

theorem exists_terminates (text : Text) :
    ∃ after, text = terminatorOf text ++ after ∧ Terminates (terminatorOf text) after := by
  unfold terminatorOf
  split
  · exact ⟨_, rfl, .inl rfl⟩
  · exact ⟨_, rfl, .inr (.inl rfl)⟩
  · rename_i noReturn noFeed
    refine ⟨text, rfl, .inr (.inr ⟨rfl, ?_, ?_⟩)⟩
    · rintro ⟨after, rfl⟩
      exact noFeed after rfl
    · rintro ⟨after, rfl⟩
      exact noReturn after rfl

theorem Terminates.terminatorOf_append {terminator after : Text} (ends : Terminates terminator after) :
    terminatorOf (terminator ++ after) = terminator := by
  rcases ends with rfl | rfl | ⟨rfl, noFeed, noReturn⟩
  · rfl
  · rfl
  · unfold terminatorOf
    split
    · rename_i tail same
      exact absurd ⟨tail, same.symm⟩ noReturn
    · rename_i tail same
      exact absurd ⟨tail, same.symm⟩ noFeed
    · rfl

theorem heads_of_read? (found : read? text = some line) : line.Heads text := by
  obtain ⟨padding, afterPadding, rfl, padded, padStops⟩ := Text.exists_parts Text.isPadding text
  obtain ⟨word, afterWord, rfl, solid, wordStops⟩ := Text.exists_parts (!Text.isBlank ·) afterPadding
  obtain ⟨spacing, afterSpacing, rfl, spaced, spaceStops⟩ := Text.exists_parts Text.isPadding afterWord
  simp only [read?, Text.takeWhile_exact padded padStops, Text.dropWhile_exact padded padStops,
    Text.takeWhile_exact solid wordStops, Text.dropWhile_exact solid wordStops,
    Text.takeWhile_exact spaced spaceStops, Text.dropWhile_exact spaced spaceStops] at found
  split at found
  · cases found
  rename_i present
  simp only [Bool.or_eq_true, decide_eq_true_eq, not_or] at present
  obtain rfl := Option.some.inj found
  by_cases none : spacing = []
  · obtain ⟨after, whole, ends⟩ := exists_terminates afterSpacing
    simp only [none, if_true, List.length_nil, List.drop_zero]
    refine ⟨present.1, padded, present.2, by simpa using solid, by simp, by simp, fun _ => rfl, after, ?_, ?_,
      ?_, by simp, ends⟩
    · simp [← whole]
    · simpa [none, ← whole] using wordStops
    · simpa [← whole] using spaceStops
  · obtain ⟨rest, behind, rfl, plain, stops⟩ := Text.exists_parts (!CommandLine.endsLine ·) afterSpacing
    obtain ⟨after, whole, ends⟩ := exists_terminates behind
    simp only [none, if_false, Text.takeWhile_exact plain stops, List.drop_left]
    refine ⟨present.1, padded, present.2, by simpa using solid, spaced, by simpa using plain,
      fun empty => absurd empty none, after, ?_, ?_, ?_, fun _ => ?_, ends⟩
    · simp [← whole]
    · simpa [← whole] using wordStops
    · simpa [← whole] using spaceStops
    · simpa [← whole] using stops

theorem Heads.read? (heads : line.Heads text) : read? text = some line := by
  obtain ⟨indented, padding, worded, word, spacing, rest, bare, after, rfl, wordStops, spaceStops, stops,
    ends⟩ := heads
  have solid : ∀ c ∈ line.word, (!Text.isBlank c) = true := by simpa using word
  have wordEnds : ∀ c ∈ (line.spacing ++ (line.rest ++ (line.terminator ++ after))).head?,
      (!Text.isBlank c) = false := by simpa using wordStops
  have padStops : ∀ c ∈ (line.word ++ (line.spacing ++ (line.rest ++ (line.terminator ++ after)))).head?,
      Text.isPadding c = false := by
    obtain ⟨first, more, same⟩ := List.exists_cons_of_ne_nil worded
    intro c head
    have : first = c := by simpa [same] using head
    subst this
    have := word first (by simp [same])
    by_contra padded
    simp [Text.isBlank_of_isPadding (by simpa using padded)] at this
  have left : (if line.spacing = [] then []
      else (line.rest ++ (line.terminator ++ after)).takeWhile (!CommandLine.endsLine ·)) = line.rest := by
    split
    next none => exact (bare none).symm
    next some =>
      apply Text.takeWhile_exact
      · simpa using rest
      · simpa using stops some
  simp only [StatLine.read?, Text.takeWhile_exact padding padStops, Text.dropWhile_exact padding padStops,
    Text.takeWhile_exact solid wordEnds, Text.dropWhile_exact solid wordEnds,
    Text.takeWhile_exact spacing spaceStops, Text.dropWhile_exact spacing spaceStops, left, indented, worded,
    decide_false, Bool.or_self, Bool.false_eq_true, if_false, List.drop_left, ends.terminatorOf_append]

/-- A line is read where one begins. -/
theorem read?_eq_none_iff : read? text = none ↔ ¬ Begins text := by
  constructor
  · rintro unread ⟨padding, c, after, rfl, indented, padded, solid⟩
    have stops : ∀ d ∈ (c :: after).head?, Text.isPadding d = false := by
      rintro _ ⟨⟩
      by_contra padding
      simp [Text.isBlank_of_isPadding (by simpa using padding)] at solid
    simp [read?, Text.takeWhile_exact padded stops, Text.dropWhile_exact padded stops, indented, solid]
      at unread
  · intro none
    by_contra read
    obtain ⟨line, read⟩ := Option.ne_none_iff_exists'.1 read
    obtain ⟨indented, padded, worded, solid, -, -, -, after, rfl, -⟩ := heads_of_read? read
    obtain ⟨c, more, same⟩ := List.exists_cons_of_ne_nil worded
    exact none ⟨line.padding, c, _, by rw [same, List.cons_append], indented, padded,
      solid c (by simp [same])⟩

theorem Heads.begins (heads : line.Heads text) : Begins text := by
  by_contra none
  have := read?_eq_none_iff.2 none
  simp [heads.read?] at this

theorem Begins.exists_heads (begins : Begins text) : ∃ line : StatLine, line.Heads text := by
  cases found : StatLine.read? text with
  | none => exact absurd begins (read?_eq_none_iff.1 found)
  | some line => exact ⟨line, heads_of_read? found⟩

theorem Heads.length_pos (heads : line.Heads text) : 0 < line.length :=
  (length_pos_of_read? heads.read?).1

end StatLine

namespace StatChart

/-- Where reading goes on behind a line: behind its block, if it owns one. -/
def next (text : Text) (level : Nat) (visit : Nat × StatLine) : Nat :=
  visit.1 + visit.2.length + if visit.2.command = "opposed_pair"
    then (text.indentedBlock level (visit.1 + visit.2.length)).length else 0

/-- The lines of a chart whose lines are padded in one way, from an offset on, and the line that ends it
because it is padded in another. -/
inductive Visits (text padding : Text) : Nat → List (Nat × StatLine) → Option (Nat × StatLine) → Prop
  | stop {start : Nat} (ends : ¬ StatLine.Begins (text.drop start)) : Visits text padding start [] none
  | leave {start : Nat} {line : StatLine} (heads : line.Heads (text.drop start))
      (other : line.padding ≠ padding) : Visits text padding start [] (some (start, line))
  | stay {start : Nat} {line : StatLine} {lines : List (Nat × StatLine)}
      {leaving : Option (Nat × StatLine)} (heads : line.Heads (text.drop start))
      (same : line.padding = padding)
      (later : Visits text padding (next text padding.length (start, line)) lines leaving) :
      Visits text padding start ((start, line) :: lines) leaving

/-- The stretch of a line that ends a chart by a mistake: the line has no less padding than the others. -/
def mistake (level : Nat) (visit : Nat × StatLine) : Option (Nat × Nat) :=
  if level ≤ visit.2.padding.length then some (visit.1, visit.1 + visit.2.length) else none

theorem exists_visits (text padding : Text) (start : Nat) : ∃ leaving,
    Visits text padding start (readFrom text (some padding) start).lines leaving ∧
      (readFrom text (some padding) start).misindented = leaving.bind (mistake padding.length) := by
  generalize given : some padding = padding?
  fun_induction readFrom text padding? start with
  | case1 padding? start unread => exact ⟨none, .stop (StatLine.read?_eq_none_iff.1 unread), rfl⟩
  | case2 padding? start line read wanted shorter =>
      subst given
      have shorter : line.padding.length < padding.length := shorter
      have other : line.padding ≠ padding := by
        rintro rfl
        omega
      refine ⟨some (start, line), .leave (StatLine.heads_of_read? read) other, ?_⟩
      simp only [Option.bind_some, mistake, if_neg (Nat.not_le.2 shorter)]
  | case3 padding? start line read wanted long other =>
      subst given
      have long : padding.length ≤ line.padding.length := Nat.not_lt.1 long
      refine ⟨some (start, line), .leave (StatLine.heads_of_read? read) other, ?_⟩
      simp only [Option.bind_some, mistake, if_pos long]
  | case4 padding? start line read wanted long same stop block chart ih =>
      subst given
      have same : line.padding = padding := Decidable.not_not.1 same
      have owns : Vocabulary.statChartBlockCommands.contains line.command = true ↔
          line.command = "opposed_pair" := by simp [Vocabulary.statChartBlockCommands]
      have onward : stop + block = next text padding.length (start, line) := by
        simp only [next, block, stop, owns]
        rfl
      obtain ⟨leaving, visits, mistaken⟩ := ih rfl
      refine ⟨leaving, .stay (StatLine.heads_of_read? read) same ?_, mistaken⟩
      rwa [← onward]

theorem readFrom_eq_stop {text : Text} {start : Nat} (ends : ¬ StatLine.Begins (text.drop start))
    (padding? : Option Text) : readFrom text padding? start = ⟨[], none⟩ := by
  have unread := StatLine.read?_eq_none_iff.2 ends
  rw [readFrom]
  split
  · rfl
  · rename_i line found
    rw [unread] at found
    cases found

/-- The first line of a chart fixes the padding. -/
theorem readFrom_none {text : Text} {start : Nat} {line : StatLine} (heads : line.Heads (text.drop start)) :
    readFrom text none start = readFrom text (some line.padding) start := by
  rw [readFrom, readFrom]
  split
  · rfl
  · rename_i first found
    obtain rfl := Option.some.inj (heads.read?.symm.trans found)
    rfl

theorem read_visits (text : Text) (start : Nat) : ∃ padding leaving,
    (∀ line : StatLine, line.Heads (text.drop start) → line.padding = padding) ∧
    Visits text padding start (read text start).lines leaving ∧
    (read text start).misindented = leaving.bind (mistake padding.length) := by
  by_cases begins : StatLine.Begins (text.drop start)
  · obtain ⟨line, heads⟩ := begins.exists_heads
    obtain ⟨leaving, visits, mistaken⟩ := exists_visits text line.padding start
    rw [read, readFrom_none heads]
    refine ⟨line.padding, leaving, fun other also => ?_, visits, mistaken⟩
    obtain rfl := Option.some.inj (heads.read?.symm.trans also.read?)
    rfl
  · rw [read, readFrom_eq_stop begins]
    exact ⟨[], none, fun line heads => absurd heads.begins begins, .stop begins, rfl⟩

namespace Visits

variable {text padding : Text} {start : Nat} {lines : List (Nat × StatLine)}
  {leaving : Option (Nat × StatLine)}

theorem heads (visits : Visits text padding start lines leaving) :
    ∀ visit ∈ lines ++ leaving.toList, visit.2.Heads (text.drop visit.1) := by
  induction visits with
  | stop => simp
  | leave heads => simpa using heads
  | stay heads same later ih => exact List.forall_mem_cons.2 ⟨heads, ih⟩

theorem padding_eq (visits : Visits text padding start lines leaving) :
    ∀ visit ∈ lines, visit.2.padding = padding := by
  induction visits with
  | stop => simp
  | leave => simp
  | stay heads same later ih => exact List.forall_mem_cons.2 ⟨same, ih⟩

theorem padding_ne (visits : Visits text padding start lines leaving) :
    ∀ visit ∈ leaving, visit.2.padding ≠ padding := by
  induction visits with
  | stop => simp
  | leave heads other => simpa using other
  | stay heads same later ih => exact ih

theorem start_le (visits : Visits text padding start lines leaving) :
    ∀ visit ∈ lines ++ leaving.toList, start ≤ visit.1 := by
  induction visits with
  | stop => simp
  | leave => simp
  | stay heads same later ih =>
      refine List.forall_mem_cons.2 ⟨Nat.le_refl _, fun visit member => ?_⟩
      have := ih visit member
      simp only [next] at this
      omega

/-- A line starts behind those before it and behind their blocks. -/
theorem apart (visits : Visits text padding start lines leaving) :
    (lines ++ leaving.toList).Pairwise fun visit later => next text padding.length visit ≤ later.1 := by
  induction visits with
  | stop => simp
  | leave => simp
  | stay heads same later ih => exact List.pairwise_cons.2 ⟨later.start_le, ih⟩

theorem rising (visits : Visits text padding start lines leaving) :
    (lines ++ leaving.toList).Pairwise fun visit later => visit.1 < later.1 := by
  refine visits.apart.imp_of_mem fun {visit later} member _ apart => ?_
  have := (visits.heads visit member).length_pos
  simp only [next] at apart
  omega

/-- No line starts in the block of another. -/
theorem skips (visits : Visits text padding start lines leaving) :
    ∀ visit ∈ lines ++ leaving.toList, ∀ other ∈ lines ++ leaving.toList,
      other.1 < visit.1 + visit.2.length ∨ next text padding.length visit ≤ other.1 := by
  apply List.Pairwise.forall_of_forall_of_flip
  · intro visit member
    have := (visits.heads visit member).length_pos
    omega
  · exact visits.apart.imp .inr
  · exact visits.rising.imp fun before => .inl (by omega)

/-- A chart has lines if one begins where it starts, and where none begins nothing ends it either. -/
theorem lines_eq_nil_iff (visits : Visits text padding start lines leaving)
    (first : ∀ line : StatLine, line.Heads (text.drop start) → line.padding = padding) :
    lines = [] ↔ ¬ StatLine.Begins (text.drop start) := by
  cases visits with
  | stop ends => simpa using ends
  | leave heads other => exact absurd (first _ heads) other
  | stay heads => simpa using heads.begins

theorem leaving_eq_none (visits : Visits text padding start lines leaving)
    (first : ∀ line : StatLine, line.Heads (text.drop start) → line.padding = padding) (none : lines = []) :
    leaving = .none := by
  cases visits with
  | stop => rfl
  | leave heads other => exact absurd (first _ heads) other
  | stay => cases none

end Visits

end StatChart

end ChoiceScript
