import ChoiceScript.Proofs.CommandLine
import ChoiceScript.Proofs.Expression.Tokens
import ChoiceScript.Proofs.Resume

/-! # The search passes over no line

The search through a document takes the line feed before a command along, and goes on after the end
of a command line, wherever on its line that is. Still no line is lost: in a text without braces the
search finds just the command lines that the lines have by themselves, each line cut at a line feed.
In any text each star stands behind padding only.
-/

namespace ChoiceScript

/-- Nothing opens without a brace. -/
theorem Opener.at?_eq_none {text : Text} (noBrace : '{' ∉ text) : at? text = none := by
  cases found : at? text with
  | none => rfl
  | some opener => exact absurd (List.mem_of_getElem? (brace_of_at? found)) noBrace

namespace Construct

variable {offset : Nat}

/-- At the start of a line a command line comes first. -/
theorem seek_true (offset : Nat) (text : Text) :
    seek true offset text =
      ((CommandLine.read? text).map (commandLine offset)).or (seek false offset text) := by
  cases text with
  | nil => rfl
  | cons c rest =>
      by_cases feed : c = '\n'
      · subst feed
        have none : CommandLine.read? ('\n' :: rest) = none :=
          CommandLine.read?_append_newline [] rest
        simp [seek, none]
      · cases read : CommandLine.read? (c :: rest) with
        | none => simp [seek, feed, read]
        | some line => simp [seek, feed, read]

/-- Nothing is found in what is left of the last line. -/
theorem seek_last {line : Text} (single : '\n' ∉ line) (noBrace : '{' ∉ line) :
    seek false offset line = none := by
  induction line generalizing offset with
  | nil => rfl
  | cons c rest ih =>
      have feed : c ≠ '\n' := fun same => single (same ▸ List.mem_cons_self)
      have later : seek false (offset + 1) rest = none :=
        ih (fun member => single (List.mem_cons_of_mem _ member))
          fun member => noBrace (List.mem_cons_of_mem _ member)
      simp [seek, feed, Opener.at?_eq_none noBrace, later]

/-- The search goes on from what is left of a line to the start of the next. -/
theorem seek_line {line more : Text} (single : '\n' ∉ line) (noBrace : '{' ∉ line ++ '\n' :: more) :
    seek false offset (line ++ '\n' :: more) = seek true (offset + line.length + 1) more := by
  induction line generalizing offset with
  | nil =>
      rw [seek_true, List.nil_append, List.length_nil, Nat.add_zero]
      have none : Opener.at? ('\n' :: more) = none := Opener.at?_eq_none noBrace
      cases read : CommandLine.read? more with
      | none => simp [seek, read, none]
      | some line => simp [seek, read]
  | cons c rest ih =>
      have feed : c ≠ '\n' := fun same => single (same ▸ List.mem_cons_self)
      have later : seek false (offset + 1) (rest ++ '\n' :: more) =
          seek true (offset + 1 + rest.length + 1) more :=
        ih (fun member => single (List.mem_cons_of_mem _ member))
          fun member => noBrace (List.mem_cons_of_mem _ member)
      have none : Opener.at? (c :: (rest ++ '\n' :: more)) = none := Opener.at?_eq_none noBrace
      simp [seek, feed, none, later, Nat.add_comm, Nat.add_left_comm]

section Lines

variable {text line : Text} {lines : List Text}

/-- The next lines start after a line and its line feed. -/
theorem drop_line (cut : text.drop offset = Text.joinWith '\n' (line :: lines)) :
    text.drop (offset + line.length + 1) = Text.joinWith '\n' lines := by
  rw [Nat.add_assoc, ← List.drop_drop, cut]
  cases lines with
  | nil =>
      rw [Text.joinWith]
      exact List.drop_eq_nil_of_le (Nat.le_succ _)
  | cons next more =>
      rw [Text.joinWith_cons_cons, ← List.drop_drop, List.drop_left]
      rfl

/-- From any place on a line the search goes on to the next line. -/
theorem seek_nextLine {place : Nat} (noBrace : '{' ∉ text) (single : '\n' ∉ line)
    (cut : text.drop offset = Text.joinWith '\n' (line :: lines)) (inside : place ≤ line.length) :
    seek false (offset + place) (text.drop (offset + place)) =
      seek true (offset + line.length + 1) (text.drop (offset + line.length + 1)) := by
  have left : '\n' ∉ line.drop place := fun member => single (List.mem_of_mem_drop member)
  have plain : '{' ∉ text.drop (offset + place) := fun member => noBrace (List.mem_of_mem_drop member)
  have next := drop_line cut
  rw [← List.drop_drop] at plain ⊢
  cases lines with
  | nil =>
      rw [cut, Text.joinWith] at plain ⊢
      rw [seek_last left plain, next]
      rfl
  | cons following more =>
      rw [cut, Text.joinWith_cons_cons, List.drop_append_of_le_length inside] at plain ⊢
      rw [seek_line left plain, next, List.length_drop]
      congr 1
      omega

theorem read?_line (cut : text.drop offset = Text.joinWith '\n' (line :: lines)) :
    CommandLine.read? (text.drop offset) = CommandLine.read? line := by
  cases lines with
  | nil => rw [cut, Text.joinWith]
  | cons next more => rw [cut, Text.joinWith_cons_cons, CommandLine.read?_append_newline]

/-- A construct that is found, and those from where reading goes on. -/
def follow (text : Text) : Option Construct → List Construct
  | none => []
  | some construct => construct :: allFrom text (construct.resume text)

theorem allFrom_eq_follow (text : Text) (start : Nat) :
    allFrom text start = follow text (seek (start = 0) start (text.drop start)) :=
  allFrom_eq text start

/-- From the start of a line on, the constructs of a text without braces are the command lines of its
lines. -/
theorem follow_lines (noBrace : '{' ∉ text) (single : ∀ line ∈ lines, '\n' ∉ line)
    (cut : text.drop offset = Text.joinWith '\n' lines) :
    follow text (seek true offset (text.drop offset)) =
      (CommandLine.ofLines offset lines).map fun found => commandLine found.1 found.2 := by
  induction lines generalizing offset with
  | nil => simp [cut, Text.joinWith, seek, follow, CommandLine.ofLines]
  | cons line lines ih =>
      have later := ih (fun other member => single other (List.mem_cons_of_mem _ member)) (drop_line cut)
      have onward : ∀ place ≤ line.length,
          seek false (offset + place) (text.drop (offset + place)) =
            seek true (offset + line.length + 1) (text.drop (offset + line.length + 1)) :=
        fun _ => seek_nextLine noBrace (single line List.mem_cons_self) cut
      rw [seek_true, read?_line cut, CommandLine.ofLines, List.map_append, ← later]
      cases read : CommandLine.read? line with
      | none => exact congrArg (follow text) (onward 0 (Nat.zero_le _))
      | some found =>
          have fits := (CommandLine.render_prefix_of_read? read).length_le
          have positive := found.length_pos
          rw [found.length_render] at fits
          have further : offset + found.length ≠ 0 := by omega
          have rest := allFrom_eq_follow text (offset + found.length)
          rw [decide_eq_false further, onward _ fits] at rest
          exact congrArg (commandLine offset found :: ·) rest

end Lines

/-- Without braces a document has no constructs but the command lines of its lines. -/
theorem all_eq_ofLines {text : Text} (noBrace : '{' ∉ text) :
    all text =
      (CommandLine.ofLines 0 (Text.splitOn '\n' text)).map fun found => commandLine found.1 found.2 := by
  rw [all, allFrom_eq_follow]
  apply follow_lines noBrace
  · exact fun line member feed => (Text.of_mem_splitOn member feed).1 rfl
  · exact (Text.joinWith_splitOn '\n' text).symm

variable {start : Nat} {line : CommandLine}

/-- A command line that is found is read at the start of the text or after a line feed. -/
theorem lineStart_of_seek {text : Text} {atStart : Bool}
    (found : seek atStart offset text = some (commandLine start line)) :
    ∃ before after, text = before ++ after ∧ start = offset + before.length ∧
      CommandLine.read? after = some line ∧
      (before = [] ∧ atStart = true ∨ before.getLast? = some '\n') := by
  fun_induction seek atStart offset text with
  | case1 => cases found
  | case2 atStart offset c rest next hit same =>
      obtain rfl := Option.some.inj found
      simp only [next] at same
      split at same
      next feed =>
        obtain ⟨read, present, same⟩ := Option.map_eq_some_iff.1 same
        cases same
        exact ⟨[c], rest, rfl, rfl, present, .inr (by simp [feed])⟩
      next =>
        split at same
        next here =>
          obtain ⟨read, present, same⟩ := Option.map_eq_some_iff.1 same
          cases same
          exact ⟨[], c :: rest, rfl, rfl, present, .inl ⟨rfl, here⟩⟩
        next => cases same
  | case3 => cases found
  | case4 atStart offset c rest next none missing ih =>
      obtain ⟨before, after, rfl, rfl, read, starts⟩ := ih found
      refine ⟨c :: before, after, rfl, by simp [Nat.add_comm, Nat.add_left_comm], read, .inr ?_⟩
      rcases starts with ⟨-, no⟩ | feed
      · cases no
      · simp [List.getLast?_cons, feed]

theorem lineStart_of_mem_allFrom {text : Text} {position : Nat}
    (member : commandLine start line ∈ allFrom text position) :
    ∃ before after, text = before ++ after ∧ start = before.length ∧
      CommandLine.read? after = some line ∧ (before = [] ∨ before.getLast? = some '\n') := by
  fun_induction allFrom text position with
  | case1 => cases member
  | case2 position construct found ih =>
      rcases List.mem_cons.1 member with rfl | later
      · obtain ⟨before, after, cut, rfl, read, starts⟩ := lineStart_of_seek found
        have nonempty := (lt_resume_of_seek text found).2
        have inside : position ≤ text.length :=
          Nat.le_of_not_lt fun past => nonempty (List.drop_eq_nil_of_le (Nat.le_of_lt past))
        refine ⟨text.take position ++ before, after, ?_, ?_, read, ?_⟩
        · rw [List.append_assoc, ← cut, List.take_append_drop]
        · rw [List.length_append, List.length_take_of_le inside]
        · rcases starts with ⟨rfl, first⟩ | feed
          · left
            simp [of_decide_eq_true first]
          · right
            simp [List.getLast?_append, feed]
      · exact ih later

end Construct

/-- A star at an offset, with nothing but padding between it and the last line feed before. -/
structure Text.StarLeads (text : Text) (offset : Nat) : Prop where
  star : text[offset]? = some '*'
  padded : ∀ c ∈ (text.take offset).reverse.takeWhile (· ≠ '\n'), isPadding c = true

theorem Construct.starLeads {text : Text} {start : Nat} {line : CommandLine}
    (member : commandLine start line ∈ all text) : text.StarLeads (start + line.padding.length) := by
  obtain ⟨before, after, rfl, rfl, read, starts⟩ := lineStart_of_mem_allFrom member
  have heads := CommandLine.heads_of_read? read
  obtain ⟨left, rfl, -⟩ := heads.cut
  constructor
  · simp [CommandLine.render]
  · have taken : (before ++ (line.render ++ left)).take (before.length + line.padding.length) =
        before ++ line.padding := by
      have parts : before ++ (line.render ++ left) = (before ++ line.padding) ++
          '*' :: (line.name ++ (line.spacing ++ (line.rest ++ left))) := by
        simp [CommandLine.render]
      rw [parts, ← List.length_append, List.take_left]
    have noFeed : ∀ c ∈ line.padding.reverse, decide (c ≠ '\n') = true := by
      intro c member
      have padded := heads.padding c (List.mem_reverse.1 member)
      refine decide_eq_true fun feed => ?_
      rw [feed] at padded
      exact absurd padded (by decide)
    have stops : ∀ c ∈ before.reverse.head?, decide (c ≠ '\n') = false := by
      rw [List.head?_reverse]
      rcases starts with rfl | feed
      · simp
      · simp [feed]
    rw [taken, List.reverse_append, Text.takeWhile_exact noFeed stops]
    exact fun c member => heads.padding c (List.mem_reverse.1 member)

end ChoiceScript
