import Mathlib.Data.List.Forall2
import ChoiceScript.Parser.Command
import ChoiceScript.Proofs.Mention.Inline
import ChoiceScript.Proofs.Parser.InlineReports
import ChoiceScript.Proofs.StatChart

/-! # Stat charts report line by line

Each line of a stat chart comes to one thing: an error in its word, the lack of a variable, an error in
place of a variable, or the variable, which is a word or an expression in braces. The line that ends a
chart comes to an error if it is padded in another way but by no less than the first.
-/

namespace ChoiceScript

/-- What is reported of the variable at an offset. -/
inductive StatVariable (source : Source) (context : Context) (index : Nat) : List Report → Prop
  | invalid {diagnostic : Diagnostic}
      (noWord : ∀ c ∈ source.document.text[index]?, Text.isWord c = false)
      (noGroup : source.document.text[index]? = some '{' →
        Text.matchingSpan source.document.text '{' '}' (index + 1) = none)
      (made : Notice.statChartInvalidVariable.between source.document index index [] = .ok diagnostic) :
      StatVariable source context index [.error diagnostic]
  | word {name : Text} {location : Location} (named : name ≠ [])
      (run : name = (source.document.text.drop index).takeWhile Text.isWord)
      (located : source.document.locationAt index (index + name.length) = .ok location) :
      StatVariable source context index [.event (.symbol .reference (String.ofList name) location) context]
  | braced {contents : Text} {new : List Report} (opens : source.document.text[index]? = some '{')
      (closes : Text.matchingSpan source.document.text '{' '}' (index + 1) = some contents)
      (read : (Parser.expression contents (index + 1) source ⟨context.command, context.stack, []⟩).2.reports =
        new) : StatVariable source context index new

/-- What is reported of the line at an offset. -/
inductive StatOutcome (source : Source) (context : Context) (start : Nat) (line : StatLine) :
    List Report → Prop
  | unknown {diagnostic : Diagnostic} (strange : line.command ∉ Vocabulary.statChartCommands)
      (made : Notice.statChartUnknownCommand.between source.document (start + line.padding.length : Nat)
        (start + line.padding.length + line.word.length : Nat)
        [("commands", ", ".intercalate Vocabulary.statChartCommands)] = .ok diagnostic) :
      StatOutcome source context start line [.error diagnostic]
  | missing {diagnostic : Diagnostic} (known : line.command ∈ Vocabulary.statChartCommands)
      (bare : Text.blank line.rest = true)
      (made : Notice.statChartMissingVariable.between source.document (start + line.padding.length : Nat)
        (start + line.padding.length + line.word.length : Nat) [("command", line.command)] = .ok diagnostic) :
      StatOutcome source context start line [.error diagnostic]
  | named {new : List Report} (known : line.command ∈ Vocabulary.statChartCommands)
      (more : Text.blank line.rest = false)
      (read : StatVariable source context
        (start + line.padding.length + line.word.length + line.spacing.length) new) :
      StatOutcome source context start line new

/-- What is reported where a chart ends. -/
inductive StatEnding (document : Document) (commandIndex : Int) (level : Nat) :
    List (Nat × StatLine) → Option (Nat × StatLine) → List Report → Prop
  | empty {diagnostic : Diagnostic} (made : Notice.statChartEmpty.between document (commandIndex - 1)
        (commandIndex + "stat_chart".length) [] = .ok diagnostic) :
      StatEnding document commandIndex level [] none [.error diagnostic]
  | silent {lines : List (Nat × StatLine)} (begun : lines ≠ []) :
      StatEnding document commandIndex level lines none []
  | shallow {lines : List (Nat × StatLine)} {last : Nat × StatLine} (begun : lines ≠ [])
      (less : last.2.padding.length < level) :
      StatEnding document commandIndex level lines (some last) []
  | deep {lines : List (Nat × StatLine)} {last : Nat × StatLine} {diagnostic : Diagnostic} (begun : lines ≠ [])
      (noLess : level ≤ last.2.padding.length)
      (made : Notice.statChartIndent.between document last.1 (last.1 + last.2.length : Nat) [] =
        .ok diagnostic) :
      StatEnding document commandIndex level lines (some last) [.error diagnostic]

namespace Parser

variable {source : Source} {context : Context}

/-- Nothing but a word or a group in braces can be a variable. -/
theorem adds_invalid {index : Nat} (noWord : ∀ c ∈ source.document.text[index]?, Text.isWord c = false)
    (noGroup : source.document.text[index]? = some '{' →
      Text.matchingSpan source.document.text '{' '}' (index + 1) = none) :
    Adds source context False (fun _ => True) (StatVariable source context index)
      (complain .statChartInvalidVariable index index []) :=
  Adds.told (Int.le_refl _) rfl fun _ made => .invalid noWord noGroup made

/-- A word is reported as a variable that is referred to. -/
theorem adds_word {index : Nat} {name : Text} (named : name ≠ [])
    (run : name = (source.document.text.drop index).takeWhile Text.isWord) :
    Adds source context False (fun _ => True) (StatVariable source context index)
      (emitSymbol .reference name index) := by
  have located : source.document.locationAt index (index + name.length) = _ :=
    Document.locationAt_eq (by omega)
  exact Adds.afterLocate located (Adds.emit (.word named run located))

/-- An expression in braces reports what it reports by itself. -/
theorem adds_braced {index : Nat} {contents : Text} (opens : source.document.text[index]? = some '{')
    (closes : Text.matchingSpan source.document.text '{' '}' (index + 1) = some contents) :
    Adds source context False (fun _ => True) (StatVariable source context index)
      (discard (expression contents (index + 1))) := by
  have adds : Adds source context False _ _ (expression contents (index + 1)) := (lays_expression _ _).alone
  exact (adds.mono (fun _ given => given) fun new read => .braced opens closes read.2).discard

theorem adds_statVariable (index : Nat) :
    Adds source context False (fun _ => True) (StatVariable source context index) (statVariable index) := by
  apply Adds.readDocument fun _ => rfl
  by_cases brace : source.document.text[index]? = some '{'
  · rw [Text.tokenAt_of_opening brace rfl]
    cases closes : Text.matchingSpan source.document.text '{' '}' (index + 1) with
    | none => exact adds_invalid (by simp [brace]; decide) fun _ => closes
    | some contents =>
        have inside : Text.inside ('{' :: contents ++ ['}']) = contents := by simp [Text.inside]
        simp only [Option.map_some, List.cons_append, List.head?_cons] at inside ⊢
        rw [inside]
        exact adds_braced brace closes
  by_cases quoted : source.document.text[index]? = some '(' ∨ source.document.text[index]? = some '"'
  · -- a group in parentheses or quotes is a token, but no variable
    have invalid : Adds source context False (fun _ => True) (StatVariable source context index)
        (complain .statChartInvalidVariable index index []) := by
      refine adds_invalid ?_ fun opens => absurd opens brace
      rcases quoted with here | here <;> simp [here] <;> decide
    rcases quoted with here | here
    all_goals
      rw [Text.tokenAt_of_opening here rfl]
      cases Text.matchingSpan source.document.text _ _ (index + 1) with
      | none => exact invalid
      | some contents => exact invalid
  obtain ⟨noGroup, noQuote⟩ := not_or.1 quoted
  have noOpening : ∀ c ∈ source.document.text[index]?,
      [('{', '}'), ('(', ')'), ('"', '"')].find? (·.1 = c) = none := by
    intro c first
    rw [Option.mem_def.1 first, Option.some.injEq] at brace noGroup noQuote
    simp [Ne.symm brace, Ne.symm noGroup, Ne.symm noQuote]
  rw [Text.tokenAt_of_run noOpening]
  have first : ((source.document.text.drop index).takeWhile Text.isWord).head? =
      source.document.text[index]?.filter Text.isWord := by
    rw [List.head?_takeWhile, List.head?_drop]
  cases run : (source.document.text.drop index).takeWhile Text.isWord with
  | nil =>
      rw [run, List.head?_nil, eq_comm, Option.filter_eq_none_iff] at first
      exact adds_invalid (by simpa using first) fun opens => absurd opens brace
  | cons c rest =>
      rw [run, List.head?_cons, eq_comm, Option.filter_eq_some_iff] at first
      have here : source.document.text[index]? = some c := first.1
      rw [if_neg (List.cons_ne_nil c rest)]
      simp only [List.head?_cons]
      split
      · rename_i same
        exact absurd (here.trans same) noGroup
      · rename_i same
        exact absurd (here.trans same) noQuote
      · rename_i same
        exact absurd (here.trans same) brace
      · exact adds_word (List.cons_ne_nil c rest) run.symm

theorem adds_statLine (start : Nat) (line : StatLine) :
    Adds source context False (fun _ => True) (StatOutcome source context start line)
      (statLine start line) := by
  have le : ((start + line.padding.length : Nat) : Int) ≤
      (start + line.padding.length + line.word.length : Nat) := by omega
  unfold statLine
  dsimp only
  split
  · rename_i known
    rw [List.contains_iff_mem] at known
    split
    · rename_i bare
      have fit : Notice.statChartMissingVariable.message.fits ["command"] = true := by decide
      exact Adds.told le fit fun _ made => .missing known bare made
    · rename_i more
      exact (adds_statVariable _).mono (fun _ given => given) fun new read =>
        .named known (by simpa [StatLine.isBare] using more) read
  · rename_i strange
    rw [List.contains_iff_mem] at strange
    have fit : Notice.statChartUnknownCommand.message.fits ["commands"] = true := by decide
    exact Adds.told le fit fun _ made => .unknown strange made

/-- Each line adds what it comes to. -/
theorem adds_statLines (lines : List (Nat × StatLine)) :
    Adds source context False (fun _ => True)
      (fun new => ∃ outcomes, new = outcomes.flatten ∧
        List.Forall₂ (fun visit => StatOutcome source context visit.1 visit.2) lines outcomes)
      (lines.forM fun visit => statLine visit.1 visit.2) := by
  induction lines with
  | nil => exact Adds.pure trivial ⟨[], rfl, .nil⟩
  | cons visit lines ih =>
      refine Adds.andThen (adds_statLine visit.1 visit.2) ih ?_
      rintro new _ outcome ⟨outcomes, rfl, later⟩
      exact ⟨new :: outcomes, rfl, .cons outcome later⟩

theorem adds_statEnding {lines : List (Nat × StatLine)} {leaving : Option (Nat × StatLine)} {level : Nat}
    {commandIndex : Int} (stays : lines = [] → leaving = none) :
    Adds source context False (fun _ => True) (StatEnding source.document commandIndex level lines leaving)
      (match leaving.bind (StatChart.mistake level) with
      | some (first, stop) => complain .statChartIndent first stop [] >>= fun _ =>
          if lines = [] then
            complain .statChartEmpty (commandIndex - 1) (commandIndex + "stat_chart".length) []
          else pure ()
      | none =>
          if lines = [] then
            complain .statChartEmpty (commandIndex - 1) (commandIndex + "stat_chart".length) []
          else pure ()) := by
  cases leaving with
  | none =>
      simp only [Option.bind_none]
      split
      · rename_i none
        subst none
        exact Adds.told (by omega) rfl fun _ made => .empty made
      · rename_i begun
        exact Adds.pure trivial (.silent begun)
  | some last =>
      have begun : lines ≠ [] := fun none => by cases stays none
      simp only [Option.bind_some, StatChart.mistake, begun, if_false]
      by_cases noLess : level ≤ last.2.padding.length
      · have le : (last.1 : Int) ≤ (last.1 + last.2.length : Nat) := by omega
        obtain ⟨diagnostic, made⟩ : ∃ diagnostic, Notice.statChartIndent.between source.document
            last.1 (last.1 + last.2.length : Nat) [] = .ok diagnostic := Notice.exists_between le rfl
        simp only [if_pos noLess]
        exact Adds.afterError made (Adds.pure trivial (.deep begun noLess made))
      · simp only [if_neg noLess]
        exact Adds.pure trivial (.shallow begun (Nat.lt_of_not_le noLess))

theorem adds_statChart (commandIndex : Int) (start : Nat) {padding : Text} {leaving : Option (Nat × StatLine)}
    (stays : (StatChart.read source.document.text start).lines = [] → leaving = none)
    (mistaken : (StatChart.read source.document.text start).misindented =
      leaving.bind (StatChart.mistake padding.length)) :
    Adds source context False (fun _ => True)
      (fun new => ∃ outcomes ending, new = outcomes.flatten ++ ending ∧
        List.Forall₂ (fun visit => StatOutcome source context visit.1 visit.2)
          (StatChart.read source.document.text start).lines outcomes ∧
        StatEnding source.document commandIndex padding.length
          (StatChart.read source.document.text start).lines leaving ending)
      (statChart commandIndex start) := by
  apply Adds.readDocument fun _ => rfl
  dsimp only
  rw [mistaken]
  refine Adds.andThen (adds_statLines _) (adds_statEnding stays) ?_
  rintro _ ending ⟨outcomes, rfl, told⟩ ends
  exact ⟨outcomes, ending, rfl, told, ends⟩

end Parser

section Codes

variable {source : Source} {context : Context} {start : Nat} {line : StatLine} {new : List Report}
  {diagnostic : Diagnostic}

theorem StatVariable.code_ne (read : StatVariable source context start new)
    (member : .error diagnostic ∈ new) :
    diagnostic.code ≠ Notice.statChartEmpty.code ∧ diagnostic.code ≠ Notice.statChartIndent.code := by
  cases read with
  | invalid noWord noGroup made =>
      obtain rfl := Report.error.inj (List.mem_singleton.1 member)
      rw [Notice.code_of_between made]
      decide
  | word => simp at member
  | @braced contents _ opens closes read =>
      have apart : ∀ notice ∈ Notice.inline,
          notice.code ≠ Notice.statChartEmpty.code ∧ notice.code ≠ Notice.statChartIndent.code := by decide
      have inlines : Parser.Inlines source context (Parser.expression contents (start + 1)) :=
        Parser.inlines_expression contents _
      obtain ⟨_, new, -, ⟨inline, alone⟩, -⟩ := inlines.alone
      rw [← read, alone] at member
      obtain ⟨notice, listed, makes⟩ := inline _ member
      rw [makes.code]
      exact apart notice listed

/-- No line comes to an error that is of the whole chart. -/
theorem StatOutcome.code_ne (outcome : StatOutcome source context start line new)
    (member : .error diagnostic ∈ new) :
    diagnostic.code ≠ Notice.statChartEmpty.code ∧ diagnostic.code ≠ Notice.statChartIndent.code := by
  cases outcome with
  | unknown strange made =>
      obtain rfl := Report.error.inj (List.mem_singleton.1 member)
      rw [Notice.code_of_between made]
      decide
  | missing known bare made =>
      obtain rfl := Report.error.inj (List.mem_singleton.1 member)
      rw [Notice.code_of_between made]
      decide
  | named known more read => exact read.code_ne member

theorem StatOutcome.code_ne_of_mem_flatten {lines : List (Nat × StatLine)} {outcomes : List (List Report)}
    (told : List.Forall₂ (fun visit => StatOutcome source context visit.1 visit.2) lines outcomes)
    (member : .error diagnostic ∈ outcomes.flatten) :
    diagnostic.code ≠ Notice.statChartEmpty.code ∧ diagnostic.code ≠ Notice.statChartIndent.code := by
  induction told with
  | nil => simp at member
  | cons outcome told ih => exact (List.mem_append.1 member).elim outcome.code_ne ih

variable {document : Document} {commandIndex : Int} {level : Nat} {lines : List (Nat × StatLine)}
  {leaving : Option (Nat × StatLine)} {ending : List Report}

/-- A chart ends with the error that it is empty just if it has no lines. -/
theorem StatEnding.empty_iff (ends : StatEnding document commandIndex level lines leaving ending) :
    (∃ diagnostic, .error diagnostic ∈ ending ∧ diagnostic.code = Notice.statChartEmpty.code) ↔
      lines = [] := by
  cases ends with
  | @empty diagnostic made =>
      exact ⟨fun _ => rfl, fun _ => ⟨diagnostic, List.mem_singleton_self _, Notice.code_of_between made⟩⟩
  | silent begun => simpa using begun
  | shallow begun less => simpa using begun
  | @deep _ last diagnostic begun noLess made =>
      have other : diagnostic.code ≠ Notice.statChartEmpty.code := by
        rw [Notice.code_of_between made]
        decide
      simpa [begun] using other

theorem StatEnding.length_eq_one (ends : StatEnding document commandIndex level [] leaving ending) :
    ending.length = 1 := by
  cases ends with
  | empty => rfl
  | silent begun => exact absurd rfl begun
  | shallow begun => exact absurd rfl begun
  | deep => rfl

/-- A chart ends with the error that a line is padded wrongly because of the line that ends it. -/
theorem StatEnding.eq_indent (ends : StatEnding document commandIndex level lines leaving ending)
    (member : .error diagnostic ∈ ending) (code : diagnostic.code = Notice.statChartIndent.code) :
    ending = [.error diagnostic] ∧ ∃ last ∈ leaving, level ≤ last.2.padding.length ∧
      Notice.statChartIndent.between document last.1 (last.1 + last.2.length : Nat) [] = .ok diagnostic := by
  cases ends with
  | empty made =>
      obtain rfl := Report.error.inj (List.mem_singleton.1 member)
      rw [Notice.code_of_between made] at code
      exact absurd code (by decide)
  | silent => cases member
  | shallow => cases member
  | @deep _ last _ begun noLess made =>
      obtain rfl := Report.error.inj (List.mem_singleton.1 member)
      exact ⟨rfl, last, rfl, noLess, made⟩

end Codes

/-- What comes of a chart below a command: the lines that are looked at, and all that is reported. -/
structure StatAccount (source : Source) (context : Context) (commandIndex : Int) (start : Nat)
    (padding : Text) (lines : List (Nat × StatLine)) (leaving : Option (Nat × StatLine))
    (new : List Report) : Prop where
  read : (StatChart.read source.document.text start).lines = lines
  /-- The first line fixes the padding. -/
  fixes : ∀ line : StatLine, line.Heads (source.document.text.drop start) → line.padding = padding
  visits : StatChart.Visits source.document.text padding start lines leaving
  rising : (lines ++ leaving.toList).Pairwise fun visit later => visit.1 < later.1
  /-- No line starts in the block of another. -/
  skips : ∀ visit ∈ lines ++ leaving.toList, visit.2.command = "opposed_pair" →
    ∀ other ∈ lines ++ leaving.toList, other.1 < visit.1 + visit.2.length ∨
      visit.1 + visit.2.length + (source.document.text.indentedBlock padding.length
        (visit.1 + visit.2.length)).length ≤ other.1
  alike : ∀ visit ∈ lines, visit.2.padding = padding
  /-- Each line comes to one thing, in the order of the lines, and the end of the chart to one or none. -/
  reported : ∃ outcomes ending, new = outcomes.flatten ++ ending ∧
    List.Forall₂ (fun visit => StatOutcome source context visit.1 visit.2) lines outcomes ∧
    StatEnding source.document commandIndex padding.length lines leaving ending
  empty : (∃ diagnostic, .error diagnostic ∈ new ∧ diagnostic.code = Notice.statChartEmpty.code) ↔
    ¬ StatLine.Begins (source.document.text.drop start)
  alone : ¬ StatLine.Begins (source.document.text.drop start) → new.length = 1
  /-- A line that is padded wrongly is told of once, and last. -/
  indent : ∀ diagnostic, .error diagnostic ∈ new → diagnostic.code = Notice.statChartIndent.code →
    ∃ before last, new = before ++ [.error diagnostic] ∧
      (∀ other, .error other ∈ before → other.code ≠ Notice.statChartIndent.code) ∧
      leaving = some last ∧ last.2.padding ≠ padding ∧ padding.length ≤ last.2.padding.length ∧
      Notice.statChartIndent.between source.document last.1 (last.1 + last.2.length : Nat) [] = .ok diagnostic

namespace Parser

/-- A stat chart is read to its end. Each line that is padded as the first comes to one thing; an empty
chart is one error, and one that ends at a line that is padded wrongly has one error about that, its
last. -/
theorem statChart_accounts (source : Source) (progress : Progress) (commandIndex : Int) (start : Nat) :
    ∃ padding lines leaving new,
      statChart commandIndex start source progress =
        (.ok (), { progress with reports := progress.reports ++ new }) ∧
      StatAccount source ⟨progress.command, progress.stack⟩ commandIndex start padding lines leaving new := by
  obtain ⟨padding, leaving, fixes, visits, mistaken⟩ := StatChart.read_visits source.document.text start
  have ends := visits.lines_eq_nil_iff fixes
  have settled : Adds source ⟨progress.command, progress.stack⟩ False (fun _ => True) _
      (statChart commandIndex start) :=
    adds_statChart commandIndex start (visits.leaving_eq_none fixes) mistaken
  obtain ⟨outcome, new, settles, ⟨outcomes, ending, rfl, told, ended⟩, ran⟩ := settled
  have here := ran source.document.version progress.reports
  cases outcome with
  | error fault => exact settles.elim
  | ok =>
      refine ⟨padding, _, leaving, _, here, ⟨rfl, fixes, visits, visits.rising, ?_, visits.padding_eq,
        ⟨outcomes, ending, rfl, told, ended⟩, ?_, ?_, ?_⟩⟩
      · intro visit member owns other also
        simpa only [StatChart.next, owns, if_true] using visits.skips visit member other also
      · rw [← ends, ← ended.empty_iff]
        refine exists_congr fun diagnostic => and_congr_left fun code => ?_
        refine ⟨fun member => (List.mem_append.1 member).resolve_left fun early => ?_,
          List.mem_append_right _⟩
        exact (StatOutcome.code_ne_of_mem_flatten told early).1 code
      · intro none
        rw [ends.2 none] at told ended
        obtain rfl := List.forall₂_nil_left_iff.1 told
        exact ended.length_eq_one
      · intro diagnostic member code
        have early {other : Diagnostic} (inside : .error other ∈ outcomes.flatten) :=
          (StatOutcome.code_ne_of_mem_flatten told inside).2
        have late := (List.mem_append.1 member).resolve_left fun inside => early inside code
        obtain ⟨rfl, last, left, noLess, made⟩ := ended.eq_indent late code
        exact ⟨_, last, rfl, fun other => early, left, visits.padding_ne last left, noLess, made⟩

end Parser

end ChoiceScript
