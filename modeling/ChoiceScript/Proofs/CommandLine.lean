import ChoiceScript.CommandLine

/-! # Command lines as a pattern

A command line is padding, a star, a word, and after more padding what is left up to the end of the
line, each part as long as it can be. Nothing past a line feed plays a part in that. So the command
lines of a text are those that its lines have, each line taken by itself.
-/

namespace ChoiceScript

namespace Text

variable {test : Char → Bool} {stop : Char}

/-- The longest prefix that satisfies a test ends where the test fails at the latest. -/
theorem takeWhile_append_stop (fails : test stop = false) (before after : Text) :
    (before ++ stop :: after).takeWhile test = before.takeWhile test := by
  induction before with
  | nil => simp [fails]
  | cons c rest ih => simp only [List.cons_append, List.takeWhile_cons, ih]

theorem dropWhile_append_stop (fails : test stop = false) (before after : Text) :
    (before ++ stop :: after).dropWhile test = before.dropWhile test ++ stop :: after := by
  induction before with
  | nil => simp [fails]
  | cons c rest ih =>
      simp only [List.cons_append, List.dropWhile_cons, ih]
      split <;> rfl

/-- Every text is parted where a test first fails. -/
theorem exists_parts (test : Char → Bool) (text : Text) : ∃ before after, text = before ++ after ∧
    (∀ c ∈ before, test c = true) ∧ ∀ c ∈ after.head?, test c = false := by
  refine ⟨text.takeWhile test, text.dropWhile test, List.takeWhile_append_dropWhile.symm,
    List.all_eq_true.1 List.all_takeWhile, fun c first => ?_⟩
  have stops := List.head?_dropWhile_not test text
  rw [Option.mem_def.1 first] at stops
  simpa using stops

end Text

namespace CommandLine

/-- A text starts with a command line: padding, a star, a word, and if more padding follows, that and
the rest of the line. No part could be longer. -/
structure Heads (line : CommandLine) (text : Text) : Prop where
  padding : ∀ c ∈ line.padding, Text.isPadding c = true
  named : line.name ≠ []
  name : ∀ c ∈ line.name, Text.isWord c = true
  spacing : ∀ c ∈ line.spacing, Text.isPadding c = true
  rest : ∀ c ∈ line.rest, endsLine c = false
  bare : line.spacing = [] → line.rest = []
  cut : ∃ after, text = line.render ++ after ∧
    (∀ c ∈ (line.spacing ++ (line.rest ++ after)).head?, Text.isWord c = false) ∧
    (∀ c ∈ (line.rest ++ after).head?, Text.isPadding c = false) ∧
    (line.spacing ≠ [] → ∀ c ∈ after.head?, endsLine c = true)

theorem heads_of_read? {text : Text} {line : CommandLine} (found : read? text = some line) :
    line.Heads text := by
  obtain ⟨padding, afterPadding, rfl, padded, padStops⟩ := Text.exists_parts Text.isPadding text
  simp only [read?, Text.takeWhile_exact padded padStops, Text.dropWhile_exact padded padStops]
    at found
  split at found
  next afterStar =>
    obtain ⟨name, afterName, rfl, word, wordStops⟩ := Text.exists_parts Text.isWord afterStar
    obtain ⟨spacing, afterSpacing, rfl, spaced, spaceStops⟩ :=
      Text.exists_parts Text.isPadding afterName
    simp only [Text.takeWhile_exact word wordStops, Text.dropWhile_exact word wordStops,
      Text.takeWhile_exact spaced spaceStops, Text.dropWhile_exact spaced spaceStops] at found
    split at found
    next => cases found
    next named =>
      obtain rfl := Option.some.inj found
      by_cases none : spacing = []
      · simp only [none, if_true]
        refine ⟨padded, named, word, by simp, by simp, fun _ => rfl, afterSpacing, ?_, ?_, ?_, ?_⟩
        · simp [render]
        · simpa [none] using wordStops
        · exact spaceStops
        · simp
      · obtain ⟨rest, after, rfl, plain, ends⟩ := Text.exists_parts (!endsLine ·) afterSpacing
        simp only [none, if_false, Text.takeWhile_exact plain ends]
        refine ⟨padded, named, word, spaced, by simpa using plain, fun empty => absurd empty none,
          after, ?_, wordStops, spaceStops, fun _ => by simpa using ends⟩
        simp [render]
  next => cases found

theorem Heads.read? {text : Text} {line : CommandLine} (heads : line.Heads text) :
    read? text = some line := by
  obtain ⟨padding, named, name, spacing, rest, bare, after, cut, wordStops, spaceStops, ends⟩ := heads
  have whole : text = line.padding ++ '*' :: (line.name ++ (line.spacing ++ (line.rest ++ after))) := by
    simp [cut, render]
  have star : ∀ c ∈ ('*' :: (line.name ++ (line.spacing ++ (line.rest ++ after)))).head?,
      Text.isPadding c = false := by simp [Text.isPadding]
  have left : (if line.spacing = [] then []
      else (line.rest ++ after).takeWhile (!endsLine ·)) = line.rest := by
    split
    next none => exact (bare none).symm
    next some =>
      apply Text.takeWhile_exact
      · simpa using rest
      · simpa using ends some
  simp only [CommandLine.read?, whole, Text.takeWhile_exact padding star,
    Text.dropWhile_exact padding star, Text.takeWhile_exact name wordStops,
    Text.dropWhile_exact name wordStops, Text.takeWhile_exact spacing spaceStops,
    Text.dropWhile_exact spacing spaceStops, left, named, if_false]

/-- A command line is read off just the texts that start with it. -/
theorem read?_eq_some_iff {text : Text} {line : CommandLine} :
    read? text = some line ↔ line.Heads text := ⟨heads_of_read?, Heads.read?⟩

/-- A line that is read as a command starts with padding, a star and the name of the command, with no word
character behind it. -/
theorem name_of_read?_iff {line name : Text} (named : name ≠ []) (word : ∀ c ∈ name, Text.isWord c = true) :
    (read? line).map (·.name) = some name ↔ ∃ padding after, line = padding ++ '*' :: (name ++ after) ∧
      (∀ c ∈ padding, Text.isPadding c = true) ∧ ∀ c ∈ after.head?, Text.isWord c = false := by
  constructor
  · intro found
    obtain ⟨command, read, rfl⟩ := Option.map_eq_some_iff.1 found
    have heads := heads_of_read? read
    obtain ⟨after, cut, stops, -, -⟩ := heads.cut
    exact ⟨command.padding, command.spacing ++ (command.rest ++ after), by simp [cut, render],
      heads.padding, stops⟩
  · rintro ⟨padding, after, rfl, padded, stops⟩
    have star : ∀ c ∈ ('*' :: (name ++ after)).head?, Text.isPadding c = false := by
      simp [Text.isPadding]
    simp [read?, Text.dropWhile_exact padded star, Text.takeWhile_exact word stops, named]

/-- No command line goes on past a line feed. -/
theorem read?_append_newline (line after : Text) : read? (line ++ '\n' :: after) = read? line := by
  have noPadding : Text.isPadding '\n' = false := by decide
  have noWord : Text.isWord '\n' = false := by decide
  have ends (before : Text) : (before ++ '\n' :: after).takeWhile (!endsLine ·) =
      before.takeWhile (!endsLine ·) := Text.takeWhile_append_stop (by decide) before after
  unfold read?
  simp only [Text.takeWhile_append_stop noPadding, Text.dropWhile_append_stop noPadding]
  cases line.dropWhile Text.isPadding with
  | nil => rfl
  | cons c afterStar =>
      by_cases star : c = '*'
      · subst star
        simp only [List.cons_append, Text.takeWhile_append_stop noWord,
          Text.dropWhile_append_stop noWord, Text.takeWhile_append_stop noPadding,
          Text.dropWhile_append_stop noPadding, ends]
      · split <;> simp_all

/-- The command lines of a list of lines, each with the offset where it starts. A line feed stands
between each line and the next. -/
def ofLines (offset : Nat) : List Text → List (Nat × CommandLine)
  | [] => []
  | line :: lines =>
    ((read? line).map (offset, ·)).toList ++ ofLines (offset + line.length + 1) lines

end CommandLine

end ChoiceScript
