import ChoiceScript.Text.Line

/-! # Lines are read one after another

The lines of a text from an offset on are what is read line by line: a line there, and then what is read
from where it stops. A line goes on up to the next line feed.
-/

namespace ChoiceScript

/-- The longest of the prefixes of a list that have a property. -/
structure IsLongestPrefix {α : Type} (fits : List α → Prop) (taken list : List α) : Prop where
  part : taken <+: list
  suits : fits taken
  longest : ∀ other, other <+: list → fits other → other <+: taken

theorem IsLongestPrefix.unique {α : Type} {fits : List α → Prop} {taken other list : List α}
    (first : IsLongestPrefix fits taken list) (second : IsLongestPrefix fits other list) : taken = other :=
  (second.longest taken first.part first.suits).eq_of_length_le
    (first.longest other second.part second.suits).length_le

theorem isLongestPrefix_takeWhile {α : Type} (test : α → Bool) (list : List α) :
    IsLongestPrefix (fun taken => ∀ item ∈ taken, test item = true) (list.takeWhile test) list where
  part := List.takeWhile_prefix test
  suits := List.all_eq_true.1 List.all_takeWhile
  longest := by
    rintro other ⟨rest, rfl⟩ all
    rw [List.takeWhile_append_of_pos all]
    exact List.prefix_append other _

namespace Text

/-- Lines that are read one after another from an offset on, up to the end of the text. -/
inductive ReadsLines (text : Text) : Nat → List Piece → Prop
  | stop {start : Nat} (none : readLine text start = none) : ReadsLines text start []
  | line {start : Nat} {line : Piece} {lines : List Piece} (read : readLine text start = some line)
    (later : ReadsLines text line.stop lines) : ReadsLines text start (line :: lines)

/-- The last character of the line that goes on at an offset: the first line feed from there on, or the last
character of a text without one. -/
structure LineLast (text : Text) (start last : Nat) : Prop where
  later : start ≤ last
  inside : last < text.length
  plain : ∀ place, start ≤ place → place < last → text[place]? ≠ some '\n'
  ends : text[last]? = some '\n' ∨ last + 1 = text.length

/-- What stands behind the first line is cut as it would be by itself. -/
theorem cutLines_tail {text line : Text} {lines : List Text} (cut : cutLines text = line :: lines) :
    lines = cutLines (text.drop line.length) := by
  fun_induction cutLines text generalizing line lines with
  | case1 => cases cut
  | case2 rest ih =>
      obtain ⟨rfl, rfl⟩ := List.cons.inj cut
      rfl
  | case3 c rest noFeed none ih =>
      obtain ⟨rfl, rfl⟩ := List.cons.inj cut
      exact none.symm
  | case4 c rest noFeed first later some ih =>
      obtain ⟨rfl, rfl⟩ := List.cons.inj cut
      exact ih some

/-- A line holds a line feed as its last character at most, and unless it is the last line it does. -/
theorem exists_of_cutLines {text line : Text} {lines : List Text} (cut : cutLines text = line :: lines) :
    ∃ before last, line = before ++ [last] ∧ '\n' ∉ before ∧ (last = '\n' ∨ lines = []) := by
  fun_induction cutLines text generalizing line lines with
  | case1 => cases cut
  | case2 rest ih =>
      obtain ⟨rfl, rfl⟩ := List.cons.inj cut
      exact ⟨[], '\n', rfl, List.not_mem_nil, .inl rfl⟩
  | case3 c rest noFeed none ih =>
      obtain ⟨rfl, rfl⟩ := List.cons.inj cut
      exact ⟨[], c, rfl, List.not_mem_nil, .inr rfl⟩
  | case4 c rest noFeed first later some ih =>
      obtain ⟨rfl, rfl⟩ := List.cons.inj cut
      obtain ⟨before, last, rfl, plain, ends⟩ := ih some
      refine ⟨c :: before, last, rfl, ?_, ends⟩
      rw [List.mem_cons, not_or]
      exact ⟨Ne.symm noFeed, plain⟩

/-- No line is empty, and a line feed stands nowhere but at the end of one. -/
theorem of_mem_cutLines {text line : Text} (member : line ∈ cutLines text) :
    line ≠ [] ∧ '\n' ∉ line.dropLast := by
  generalize same : cutLines text = lines at member
  induction lines generalizing text with
  | nil => cases member
  | cons first lines ih =>
      rcases List.mem_cons.1 member with rfl | later
      · obtain ⟨before, last, rfl, plain, -⟩ := exists_of_cutLines same
        exact ⟨by simp, by rwa [List.dropLast_concat]⟩
      · exact ih (cutLines_tail same).symm later

theorem map_text_placeLines (start : Nat) (lines : List Text) :
    (placeLines start lines).map Piece.text = lines := by
  induction lines generalizing start with
  | nil => rfl
  | cons line lines ih => rw [placeLines, List.map_cons, ih]

theorem map_text_linesFrom (text : Text) (start : Nat) :
    (linesFrom text start).map Piece.text = cutLines (text.drop start) :=
  map_text_placeLines start _

theorem linesFrom_eq (text : Text) (start : Nat) : linesFrom text start =
    match readLine text start with
    | none => []
    | some line => line :: linesFrom text line.stop := by
  rw [readLine, linesFrom]
  cases cut : cutLines (text.drop start) with
  | nil => rfl
  | cons line lines =>
      have later := cutLines_tail cut
      rw [List.drop_drop] at later
      simp only [placeLines, List.head?_cons, linesFrom, Piece.stop, later]

theorem readsLines_linesFrom (text : Text) (start : Nat) :
    ReadsLines text start (linesFrom text start) := by
  generalize same : linesFrom text start = lines
  induction lines generalizing start with
  | nil =>
      rw [linesFrom_eq] at same
      cases read : readLine text start with
      | none => exact .stop read
      | some line => simp [read] at same
  | cons line lines ih =>
      rw [linesFrom_eq] at same
      cases read : readLine text start with
      | none => simp [read] at same
      | some first =>
          simp only [read, List.cons.injEq] at same
          obtain ⟨rfl, later⟩ := same
          exact .line read (ih _ later)

section LineEnd

variable {text : Text} {start last other stop place : Nat}

theorem LineLast.unique (one : LineLast text start last) (two : LineLast text start other) :
    last = other := by
  have not_before {last other : Nat} (one : LineLast text start last) (two : LineLast text start other) :
      ¬ last < other := by
    intro earlier
    rcases one.ends with feed | final
    · exact two.plain last one.later earlier feed
    · have := two.inside
      omega
  exact Nat.le_antisymm (Nat.not_lt.1 (not_before two one)) (Nat.not_lt.1 (not_before one two))

/-- A line that goes on at an earlier offset, with no line feed between, has the same last character. -/
theorem LineLast.earlier (ends : LineLast text start last) (le : place ≤ start)
    (plain : ∀ between, place ≤ between → between < start → text[between]? ≠ some '\n') :
    LineLast text place last where
  later := Nat.le_trans le ends.later
  inside := ends.inside
  plain between from_ upto := by
    rcases Nat.lt_or_ge between start with early | late
    · exact plain between from_ early
    · exact ends.plain between late upto
  ends := ends.ends

/-- In the text there is a line to go on with, and what is read of it goes up to its last character. -/
theorem exists_lineLast (inside : start < text.length) :
    ∃ last, LineLast text start last ∧ lineEnd? text start = some (last + 1) := by
  cases cut : cutLines (text.drop start) with
  | nil =>
      have whole := flatten_cutLines (text.drop start)
      rw [cut, List.flatten_nil] at whole
      have := List.drop_eq_nil_iff.1 whole.symm
      omega
  | cons line lines =>
      obtain ⟨before, c, rfl, plain, ends⟩ := exists_of_cutLines cut
      have whole := flatten_cutLines (text.drop start)
      rw [cut, List.flatten_cons, List.append_assoc] at whole
      have at_ (place : Nat) : text[start + place]? = (before ++ ([c] ++ lines.flatten))[place]? := by
        rw [whole, List.getElem?_drop]
      have length := congrArg List.length whole
      simp only [List.length_append, List.length_cons, List.length_nil, List.length_drop] at length
      refine ⟨start + before.length, ⟨Nat.le_add_right _ _, by omega, fun place from_ upto feed => ?_, ?_⟩, ?_⟩
      · obtain ⟨place, rfl⟩ := Nat.exists_eq_add_of_le from_
        rw [at_, List.getElem?_append_left (by omega)] at feed
        exact plain (List.mem_of_getElem? feed)
      · rcases ends with rfl | rfl
        · refine .inl ?_
          rw [at_, List.getElem?_append_right (Nat.le_refl _), Nat.sub_self]
          rfl
        · rw [List.flatten_nil, List.length_nil] at length
          exact .inr (by omega)
      · simp [lineEnd?, readLine, linesFrom, cut, placeLines, Piece.stop, Nat.add_assoc]

theorem lineEnd?_eq_some_iff : lineEnd? text start = some stop ↔
    ∃ last, stop = last + 1 ∧ LineLast text start last := by
  constructor
  · intro found
    rcases Nat.lt_or_ge start text.length with inside | past
    · obtain ⟨last, ends, same⟩ := exists_lineLast inside
      rw [found, Option.some.injEq] at same
      exact ⟨last, same, ends⟩
    · rw [lineEnd?, readLine, linesFrom, List.drop_eq_nil_of_le past] at found
      cases found
  · rintro ⟨last, rfl, ends⟩
    obtain ⟨last, also, found⟩ := exists_lineLast (Nat.lt_of_le_of_lt ends.later ends.inside)
    rw [found, also.unique ends]

theorem le_of_lineEnd? (found : lineEnd? text start = some stop) : start ≤ stop := by
  obtain ⟨last, rfl, ends⟩ := lineEnd?_eq_some_iff.1 found
  exact Nat.le_succ_of_le ends.later

/-- A line ends in the text. -/
theorem lineEnd?_le (found : lineEnd? text start = some stop) : stop ≤ text.length := by
  obtain ⟨last, rfl, ends⟩ := lineEnd?_eq_some_iff.1 found
  exact ends.inside

end LineEnd

end Text

end ChoiceScript
