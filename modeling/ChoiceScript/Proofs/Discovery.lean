import ChoiceScript.Proofs.Construct
import ChoiceScript.Proofs.Nesting.Document
import ChoiceScript.Proofs.Parser.Document

/-! # Commands are found line by line

Every command line that is found is reported first of all that it says, and nothing else is reported
as a command. So the commands of a document stand one after another, and without braces they are the
command lines of its lines.
-/

namespace ChoiceScript

/-- Where the name of a command line stands that starts at an offset. -/
def Document.nameLocation (document : Document) (start : Nat) (line : CommandLine) : Location where
  uri := document.uri
  range := {
    start := document.positionAt (start + line.padding.length + 1)
    stop := document.positionAt (start + line.padding.length + 1 + line.name.length)
    start_le_stop := positionAt_mono (by omega) }

theorem Document.locationAt_name (document : Document) (start : Nat) (line : CommandLine) :
    document.locationAt (start + line.padding.length + 1)
      (start + line.padding.length + 1 + (String.ofList line.name).length) =
        .ok (document.nameLocation start line) := by
  rw [String.length_ofList]
  exact locationAt_eq (by omega)

/-- The command lines that the lines of a document have by themselves, and where their names stand. -/
def Document.commandLines (document : Document) : List (CommandLine × Location) :=
  (CommandLine.ofLines 0 (Text.splitOn '\n' document.text)).map fun (start, line) =>
    (line, document.nameLocation start line)

/-- The command line that a report tells of, and where its name stands. -/
def Report.command? : Report → Option (CommandLine × Location)
  | .event (.command padding name spacing rest location) _ =>
    some (⟨padding, name.toList, spacing, rest⟩, location)
  | _ => none

/-- The commands that are reported in reading a document. -/
def Source.commands (source : Source) : List (CommandLine × Location) :=
  source.stream.filterMap Report.command?

/-- The command that is reported for a construct. -/
def Construct.command? (document : Document) : Construct → Option (CommandLine × Location)
  | commandLine start line => some (line, document.nameLocation start line)
  | inline _ => none

/-- Without command events no commands are told of. -/
theorem Tidy.no_commands {fits : Event → Context → Prop} {deep : Prop} {new : List Report}
    (tidy : Tidy fits deep new) (details : ∀ event place, fits event place → event.IsDetail) :
    new.filterMap Report.command? = [] := by
  refine List.filterMap_eq_nil_iff.2 fun report member => ?_
  match report with
  | .event (.command ..) _ => exact (details _ _ (tidy.fits member)).elim
  | .event (.symbol ..) _ | .event (.flow _) _ | .event (.scenes ..) _ | .error _ => rfl

namespace Parser

/-- Each construct is told of as the command that it is, if it is one. -/
theorem construct_told (source : Source) (construct : Construct) :
    Adds source ⟨none, []⟩ True (fun _ => True)
      (fun new => new.filterMap Report.command? = (construct.command? source.document).toList)
      (Parser.construct construct) := by
  cases construct with
  | commandLine start line =>
      apply Adds.mono (command_adds (source.document.locationAt_name start line) nests_arguments)
        (fun _ given => given)
      rintro new ⟨more, rfl, tidy⟩
      have none := tidy.no_commands fun _ _ held => held.1
      simp [Report.command?, Construct.command?, none]
  | inline opening =>
      apply Adds.readDocument fun _ => rfl
      apply Adds.mono (nests_openingWith (fun _ held => held.1) (nests_descent _) opening)
        (fun _ given => given)
      intro new tidy
      exact tidy.no_commands fun _ _ held => held.1.isAside.isDetail

/-- The commands that are reported are the first of those that are found, and all of them unless
reading fails. -/
theorem whole_tells (source : Source) :
    source.commands <+:
        (Construct.all source.document.text).filterMap (Construct.command? source.document) ∧
      ((whole.run source).1 = .ok () → source.commands =
        (Construct.all source.document.text).filterMap (Construct.command? source.document)) := by
  have lists : Lists source ⟨none, []⟩ Report.command?
      ((Construct.all source.document.text).filterMap (Construct.command? source.document)) whole :=
    .readDocument (fun _ => rfl) (.forM fun construct _ => .of_adds (construct_told source construct))
  exact ⟨lists.run_eq.1, lists.run_eq.2 ()⟩

end Parser

namespace Document

variable {document : Document}

theorem offsetAt_nameLocation {start : Nat} {line : CommandLine}
    (stands : (Construct.commandLine start line).StandsIn document.text 0) :
    document.offsetAt (document.nameLocation start line).range.start =
      start + line.padding.length + 1 := by
  obtain ⟨skipped, rfl, isPrefix⟩ := stands
  have fits := isPrefix.length_le
  rw [line.length_render, List.length_drop] at fits
  have inside : 0 + skipped + line.padding.length + 1 ≤ document.text.length := by
    unfold CommandLine.length at fits
    omega
  rw [nameLocation, offsetAt_positionAt]
  exact_mod_cast clamp_natCast inside

end Document

namespace Source

variable {source : Source}

theorem exists_construct {command : CommandLine × Location} (member : command ∈ source.commands) :
    ∃ start, .commandLine start command.1 ∈ Construct.all source.document.text ∧
      command.2 = source.document.nameLocation start command.1 := by
  have found := (Parser.whole_tells source).1.subset member
  obtain ⟨construct, present, same⟩ := List.mem_filterMap.1 found
  cases construct with
  | commandLine start line =>
      cases same
      exact ⟨start, present, rfl⟩
  | inline opening => cases same

/-- The commands that are reported stand one after another. -/
theorem commands_increasing (source : Source) :
    source.commands.Pairwise fun a b =>
      source.document.offsetAt a.2.range.start < source.document.offsetAt b.2.range.start := by
  refine List.Pairwise.sublist (Parser.whole_tells source).1.sublist (List.pairwise_filterMap.2 ?_)
  refine List.Pairwise.imp_of_mem ?_ (Construct.allFrom_apart source.document.text 0).2
  intro first second hereFirst hereSecond apart a fromFirst b fromSecond
  cases first with
  | inline opening => cases fromFirst
  | commandLine start line =>
      cases second with
      | inline opening => cases fromSecond
      | commandLine start' line' =>
          cases fromFirst
          cases fromSecond
          rw [Document.offsetAt_nameLocation (Construct.standsIn_of_mem_all hereFirst),
            Document.offsetAt_nameLocation (Construct.standsIn_of_mem_all hereSecond)]
          simp only [Construct.resume, Construct.start, CommandLine.length] at apart
          omega

/-- Without braces the commands that are found are those of the lines. -/
theorem found_eq_commandLines (noBrace : '{' ∉ source.document.text) :
    (Construct.all source.document.text).filterMap (Construct.command? source.document) =
      source.document.commandLines := by
  rw [Construct.all_eq_ofLines noBrace, List.filterMap_map, Document.commandLines,
    ← List.filterMap_eq_map]
  rfl

/-- The commands that are reported in reading a document stand one after another, each with its star
first on its line but for padding. In a document without braces they are the command lines that its
lines have by themselves: all of them, or where the address of the document cannot be read the first
ones. A line has a command line if it starts with one, no part of which could be longer. -/
theorem commands_are_lines (source : Source) :
    (source.commands.Pairwise fun a b =>
      source.document.offsetAt a.2.range.start < source.document.offsetAt b.2.range.start) ∧
    (∀ command ∈ source.commands, ∃ star, source.document.text.StarLeads star ∧
      source.document.offsetAt command.2.range.start = star + 1) ∧
    ('{' ∉ source.document.text →
      match (Parser.whole.run source).1 with
      | .ok () => source.commands = source.document.commandLines
      | .error fault => Uri.isStartup source.startupFile source.document.uri = .error fault ∧
          source.commands <+: source.document.commandLines) ∧
    ∀ (text : Text) (line : CommandLine), CommandLine.read? text = some line ↔ line.Heads text := by
  refine ⟨source.commands_increasing, ?_, ?_, fun _ _ => CommandLine.read?_eq_some_iff⟩
  · intro command member
    obtain ⟨start, found, location⟩ := exists_construct member
    refine ⟨_, Construct.starLeads found, ?_⟩
    rw [location, Document.offsetAt_nameLocation (Construct.standsIn_of_mem_all found)]
  · intro noBrace
    obtain ⟨begins, all⟩ := Parser.whole_tells source
    rw [found_eq_commandLines noBrace] at begins all
    obtain ⟨new, -, -, ends⟩ := Parser.truthful_whole source {}
    cases outcome : (Parser.whole.run source).1 with
    | ok value => exact all outcome
    | error fault =>
        rw [Parser.run] at outcome
        rw [outcome] at ends
        exact ⟨ends, begins⟩

/-- Commands on the first line and on the last, which has no line feed, on lines that follow one
another, behind padding and before a carriage return; and stars that are no commands. -/
def unevenLines : Source :=
  ⟨⟨"file:///game/town.txt", "*set a 1\r\n\r\n *goto b\n*if\n3 *temp c\n*-\n\t*label d".toList, 0⟩,
    "startup.txt"⟩

theorem unevenLines_commands : '{' ∉ unevenLines.document.text ∧
    unevenLines.commands = unevenLines.document.commandLines ∧
    (unevenLines.commands.map fun command =>
      (String.ofList command.1.render, unevenLines.document.offsetAt command.2.range.start)) =
      [("*set a 1", 1), (" *goto b", 14), ("*if", 22), ("\t*label d", 40)] := by
  have noBrace : '{' ∉ unevenLines.document.text := by decide
  have passed : (Parser.whole.run unevenLines).1 = .ok () := by decide +kernel
  have lines := unevenLines.commands_are_lines.2.2.1 noBrace
  simp only [passed] at lines
  refine ⟨noBrace, lines, ?_⟩
  rw [lines]
  decide +kernel

end Source

end ChoiceScript
