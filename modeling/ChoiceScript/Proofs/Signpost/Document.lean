import ChoiceScript.Proofs.Document.Order
import ChoiceScript.Proofs.Signpost.Basic

/-! # Labels and jumps of a document

Reading a command line reports the label or the jump that the line gives, and nothing else reports
any. So the labels and jumps of a document are those of its command lines, and stand one after
another like them.
-/

namespace ChoiceScript

/-- Asides are neither labels nor jumps. -/
theorem Tidy.no_signposts {fits : Event → Context → Prop} {deep : Prop} {new : List Report}
    (tidy : Tidy fits deep new) (asides : ∀ event place, fits event place → event.IsAside) :
    new.filterMap Report.signpost? = [] := by
  refine List.filterMap_eq_nil_iff.2 fun report member => ?_
  rcases report with ⟨event, place⟩ | diagnostic
  · have aside := asides _ _ (tidy.fits member)
    cases event with
    | flow => exact aside.elim
    | symbol role =>
        cases role with
        | label => exact aside.elim
        | _ => rfl
    | _ => rfl
  · rfl

namespace Parser

variable {source : Source} {context : Context} {stack : List Element} {line : Text}

theorem Nests.quiet {α : Type} {parser : Parser α} (nests : Nests source Event.IsAside context parser) :
    Adds source context True (fun _ => True) (fun new => new.filterMap Report.signpost? = []) parser :=
  Adds.mono nests (fun _ given => given) fun _ tidy => tidy.no_signposts fun _ _ held => held.1

theorem lists_label {lineStart : Nat} :
    Lists source context Report.signpost? (source.document.label? line lineStart).toList
      (symbolCommand "label" line lineStart) := by
  rw [symbolCommand_label]
  unfold Document.label?
  dsimp only
  split
  · exact .of_adds (Nests.quiet (Tells.complain (by decide)))
  · exact .afterLocate (source.document.locationAt_span _ _) (.emit rfl)

theorem map_locate_bind {α β : Type} {start stop : Int} {change : Location → α} {next : α → Parser β} :
    change <$> locate start stop >>= next =
      locate start stop >>= fun location => next (change location) := by
  funext source progress
  simp only [Functor.map, Bind.bind, locate]
  cases source.document.locationAt start stop <;> rfl

theorem lists_jump {command : String} {commandStart lineStart : Nat}
    (jumps : command ∈ Vocabulary.flowCommands) :
    Lists source context Report.signpost?
      [.jump (source.document.jump command commandStart line lineStart)]
      (flow command commandStart line lineStart) := by
  have named := source.document.locationAt_span commandStart command.toList
  rw [String.length_toList] at named
  by_cases returns : command = "return"
  · subst returns
    exact .afterLocate named (.emit rfl)
  have inScene : command.toList.drop (command.length - 6) = "_scene".toList ↔
      command = "goto_scene" ∨ command = "gosub_scene" := by
    clear named returns
    revert command
    decide
  unfold flow jump Document.jump
  simp only [if_neg returns, inScene]
  generalize Text.jumpTargets line = targets
  obtain ⟨⟨first, start⟩, ⟨second, skipped⟩⟩ := targets
  have placed := source.document.locationAt_span (lineStart + skipped) second
  simp only [Int.natCast_add] at placed
  refine .afterLocate named (.after nests_computedTarget.quiet fun _ =>
    .after nests_computedTarget.quiet fun _ => ?_)
  refine .afterLocate (source.document.locationAt_span lineStart first) ?_
  by_cases scene : command = "goto_scene" ∨ command = "gosub_scene"
  · simp only [if_pos scene]
    by_cases unlabelled : second = []
    · simp only [if_pos unlabelled]
      exact .emit rfl
    · simp only [if_neg unlabelled, map_locate_bind]
      exact .afterLocate placed (.emit rfl)
  · simp only [if_neg scene]
    exact .emit rfl

/-- Labels and jumps are read anywhere in a project. -/
theorem known_of_post {name : String} (posts : name = "label" ∨ name ∈ Vocabulary.flowCommands) :
    name ∈ Vocabulary.commands ∧ name ∉ Vocabulary.startupCommands := by
  have known : ∀ name ∈ "label" :: Vocabulary.flowCommands,
      name ∈ Vocabulary.commands ∧ name ∉ Vocabulary.startupCommands := by decide +kernel
  exact known name (by simpa using posts)

theorem lists_arguments {name : String} {nameStart restStart : Nat}
    (posts : name = "label" ∨ name ∈ Vocabulary.flowCommands) :
    Lists source context Report.signpost?
      (source.document.post? name nameStart line restStart).toList
      (arguments name line nameStart restStart) := by
  unfold Document.post?
  by_cases label : name = "label"
  · subst label
    rw [if_pos rfl, arguments_label]
    exact lists_label
  · have jumps := posts.resolve_left label
    rw [if_neg label, if_pos jumps, arguments_flow jumps]
    exact lists_jump jumps

theorem lists_command {start : Nat} {line : CommandLine} :
    Lists source ⟨none, stack⟩ Report.signpost? (source.document.signpost? start line).toList
      (command line.padding (String.ofList line.name) line.spacing line.rest
        (start + line.padding.length + 1)) := by
  have located := source.document.locationAt_name start line
  by_cases posts : String.ofList line.name = "label" ∨ String.ofList line.name ∈ Vocabulary.flowCommands
  · obtain ⟨known, anywhere⟩ := known_of_post posts
    refine .duringCommand (.afterLocate located (.after (Adds.emit rfl) fun _ => ?_))
    unfold Document.signpost?
    simp only [List.contains_eq_mem, known, anywhere, Bool.and_eq_true, decide_true, decide_eq_true_eq,
      Bool.not_true, Bool.false_eq_true, if_false, decide_false]
    split
    · exact .of_adds (Nests.quiet (Tells.complain (by decide)))
    · have restIndex : (start + line.padding.length + 1 + (String.ofList line.name).length +
          line.spacing.length : Int) = (line.restStart start : Int) := by
        rw [String.length_ofList, CommandLine.restStart, CommandLine.nameStart]
        omega
      have nameIndex : (start + line.padding.length + 1 : Int) = (line.nameStart start : Int) := by
        rw [CommandLine.nameStart]
        omega
      rw [restIndex, nameIndex]
      exact lists_arguments posts
  · rw [not_or] at posts
    have quiet : source.document.signpost? start line = none := by
      simp only [Document.signpost?, Document.post?, if_neg posts.1, if_neg posts.2, ite_self]
    rw [quiet]
    refine .of_adds (Adds.mono (command_adds located (nests_asideArguments posts.1 posts.2))
      (fun _ given => given) ?_)
    rintro new ⟨more, rfl, tidy⟩
    exact tidy.no_signposts fun _ _ held => held.1

theorem lists_construct (source : Source) (construct : Construct) :
    Lists source ⟨none, []⟩ Report.signpost? (construct.signpost? source.document).toList
      (Parser.construct construct) := by
  cases construct with
  | commandLine start line => exact lists_command
  | inline opening =>
      refine .of_adds (Adds.readDocument (fun _ => rfl) (Nests.quiet ?_))
      exact (nests_openingWith (fun _ held => held.1) (nests_descent _) opening).allowing
        fun _ held => held.isAside

theorem lists_whole (source : Source) :
    Lists source ⟨none, []⟩ Report.signpost?
      ((Construct.all source.document.text).filterMap (Construct.signpost? source.document)) whole :=
  .readDocument (fun _ => rfl) (.forM fun construct _ => lists_construct source construct)

variable {command : String} {commandStart lineStart : Nat}

theorem label_passes : ((symbolCommand "label" line lineStart).run source).1 = .ok () := by
  have reads : ∀ context, Reads source context False (fun _ => True) lineStart lineStart
      (symbolCommand "label" line lineStart) := by
    intro context
    rw [symbolCommand_label]
    split
    · exact .complain (.inr ⟨by omega, by decide⟩)
    · exact .emitOther (by simp) (Int.le_refl _)
  obtain ⟨_, passed, -⟩ := Adds.passes reads {}
  exact passed

theorem flow_passes : ((flow command commandStart line lineStart).run source).1 = .ok () := by
  have reads : ∀ context, Reads source context False (fun _ => True) lineStart (lineStart + line.length)
      (flow command commandStart line lineStart) := fun _ => reads_flow
  obtain ⟨_, passed, -⟩ := Adds.passes reads {}
  exact passed

/-- The label of arguments that do not start with a brace is what a jump with these arguments leads
to. If they do not start with a character of labels, there is no label and nothing to jump to. -/
theorem label_and_jump_agree (source : Source) (labelStart : Nat)
    (jumps : command = "goto" ∨ command = "gosub") (plain : line.head? ≠ some '{') :
    names (· = .label) ((symbolCommand "label" line labelStart).run source).2.reports =
      (if line.takeWhile Text.isLabel = [] then []
        else [(String.ofList (line.takeWhile Text.isLabel),
          source.document.span labelStart (line.takeWhile Text.isLabel))]) ∧
    ∃ event, ((flow command commandStart line lineStart).run source).2.reports.filterMap Report.flow? =
        [event] ∧ event.label = String.ofList (line.takeWhile Text.isLabel) := by
  constructor
  · rw [names_label, lists_label.run_eq.2 () label_passes, Document.label?]
    split
    · rfl
    · rfl
  · have known : command ∈ Vocabulary.flowCommands := by
      rcases jumps with rfl | rfl <;> decide
    refine ⟨source.document.jump command commandStart line lineStart, ?_,
      Document.label_jump jumps plain⟩
    rw [flows_eq_filterMap, (lists_jump known).run_eq.2 () flow_passes]
    rfl

end Parser

namespace Construct

/-- The jump that a construct gives, if it gives one. -/
def jump? (document : Document) (construct : Construct) : Option FlowEvent :=
  (construct.signpost? document).bind Signpost.jump?

/-- The label that a construct gives, if it gives one. -/
def label? (document : Document) (construct : Construct) : Option (String × Location) :=
  (construct.signpost? document).bind Signpost.label?

theorem jump?_eq_some {document : Document} {construct : Construct} {event : FlowEvent}
    (gives : construct.jump? document = some event) :
    ∃ start line, construct = .commandLine start line ∧
      String.ofList line.name ∈ Vocabulary.flowCommands ∧
      event = document.jump (String.ofList line.name) (line.nameStart start) line.rest
        (line.restStart start) := by
  obtain ⟨post, given, same⟩ := Option.bind_eq_some_iff.1 gives
  cases construct with
  | inline opening => cases given
  | commandLine start line =>
      rcases Document.signpost?_cases given with ⟨label, rfl⟩ | ⟨jumps, rfl⟩
      · cases same
      · exact ⟨start, line, rfl, jumps, (Option.some.inj same).symm⟩

/-- The places of a signpost start on its line. -/
theorem places_of_signpost? {document : Document} {construct : Construct} {post : Signpost}
    {place : Location} (gives : construct.signpost? document = some post) (member : place ∈ post.places) :
    document.StartsBetween (construct.start + 1) (construct.resume document.text) place := by
  cases construct with
  | inline opening => cases gives
  | commandLine start line =>
      have after : line.nameStart start ≤ line.restStart start := by
        simp only [CommandLine.restStart]
        omega
      have placed : document.StartsBetween (line.nameStart start)
          (line.restStart start + line.rest.length) place := by
        rcases Document.signpost?_cases gives with ⟨label, rfl⟩ | ⟨-, rfl⟩
        · obtain rfl := List.mem_singleton.1 member
          exact ⟨line.restStart start, after, Nat.le_add_right _ _, rfl⟩
        · exact Document.places_jump after member
      obtain ⟨offset, first, last, same⟩ := placed
      refine ⟨offset, ?_, ?_, same⟩
      · simp only [CommandLine.nameStart, Construct.start] at *
        omega
      · simp only [CommandLine.restStart, CommandLine.nameStart, resume, CommandLine.length] at *
        omega

end Construct

namespace Source

variable {source : Source} {event : FlowEvent}

/-- The jumps and returns of a document. -/
def flows (source : Source) : List FlowEvent := source.stream.filterMap Report.flow?

/-- The labels of a document. -/
def labels (source : Source) : List (String × Location) := names (· = .label) source.stream

/-- The labels, jumps and returns of a document. -/
def signposts (source : Source) : List Signpost := source.stream.filterMap Report.signpost?

theorem flows_eq_signposts (source : Source) : source.flows = source.signposts.filterMap Signpost.jump? :=
  flows_eq_filterMap _

theorem labels_eq_signposts (source : Source) :
    source.labels = source.signposts.filterMap Signpost.label? :=
  names_label _

theorem signposts_begin (source : Source) :
    source.signposts <+:
      (Construct.all source.document.text).filterMap (Construct.signpost? source.document) :=
  (Parser.lists_whole source).run_eq.1

theorem signposts_eq (passed : (Parser.whole.run source).1 = .ok ()) :
    source.signposts =
      (Construct.all source.document.text).filterMap (Construct.signpost? source.document) :=
  (Parser.lists_whole source).run_eq.2 () passed

/-- Each place of a signpost starts before each place of a later one. -/
theorem signposts_apart (source : Source) :
    source.signposts.Pairwise fun a b =>
      ∀ x ∈ a.places, ∀ y ∈ b.places, x.range.start < y.range.start := by
  refine List.Pairwise.sublist source.signposts_begin.sublist (List.pairwise_filterMap.2 ?_)
  refine List.Pairwise.imp_of_mem ?_ (Construct.allFrom_apart source.document.text 0).2
  intro first second hereFirst hereSecond apart a fromFirst b fromSecond x ofFirst y ofSecond
  obtain ⟨early, -, before, earlySame⟩ := Construct.places_of_signpost? fromFirst ofFirst
  obtain ⟨late, after, fits, lateSame⟩ := Construct.places_of_signpost? fromSecond ofSecond
  have inside := Construct.resume_le (Construct.standsIn_of_mem_all hereSecond)
  rw [← Position.not_le]
  intro swapped
  have offsets := source.document.offsetAt_mono swapped
  rw [earlySame, lateSame, Document.offsetAt_positionAt, Document.offsetAt_positionAt,
    Document.clamp_natCast (by omega), Document.clamp_natCast (by omega)] at offsets
  omega

theorem flows_eq (passed : (Parser.whole.run source).1 = .ok ()) :
    source.flows =
      (Construct.all source.document.text).filterMap (Construct.jump? source.document) := by
  rw [flows_eq_signposts, signposts_eq passed, List.filterMap_filterMap]
  rfl

theorem labels_eq (passed : (Parser.whole.run source).1 = .ok ()) :
    source.labels =
      (Construct.all source.document.text).filterMap (Construct.label? source.document) := by
  rw [labels_eq_signposts, signposts_eq passed, List.filterMap_filterMap]
  rfl

theorem shaped_flow (member : event ∈ source.flows) : event.Shaped := by
  rw [flows_eq_signposts] at member
  obtain ⟨post, among, same⟩ := List.mem_filterMap.1 member
  obtain ⟨construct, -, gives⟩ := List.mem_filterMap.1 (source.signposts_begin.subset among)
  obtain ⟨start, line, -, jumps, rfl⟩ :=
    Construct.jump?_eq_some (Option.bind_eq_some_iff.2 ⟨post, gives, same⟩)
  exact Document.shaped_jump jumps

/-- Each place of a jump starts before each place of a later one. -/
theorem flows_apart (source : Source) :
    source.flows.Pairwise fun a b => ∀ x ∈ a.places, ∀ y ∈ b.places, x.range.start < y.range.start := by
  rw [flows_eq_signposts, List.pairwise_filterMap]
  refine source.signposts_apart.imp fun apart a isA b isB => ?_
  rw [Signpost.jump?_eq_some] at isA isB
  subst isA isB
  exact apart

/-- Labels stand in the order in which they are reported. -/
theorem labels_apart (source : Source) :
    source.labels.Pairwise fun a b => a.2.range.start < b.2.range.start := by
  rw [labels_eq_signposts, List.pairwise_filterMap]
  refine source.signposts_apart.imp fun apart a isA b isB => ?_
  rw [Signpost.label?_eq_some] at isA isB
  subst isA isB
  exact apart _ (List.mem_singleton_self _) _ (List.mem_singleton_self _)

/-- A command is known by its place. -/
theorem command_unique {command other : CommandLine × Location} (member : command ∈ source.commands)
    (among : other ∈ source.commands) (same : command.2 = other.2) : command = other := by
  refine eq_of_pairwise source.commands_increasing member among ?_ ?_
  · rw [same]
    exact Nat.lt_irrefl _
  · rw [same]
    exact Nat.lt_irrefl _

section Passed

variable (passed : (Parser.whole.run source).1 = .ok ())

include passed

theorem commands_eq : source.commands =
    (Construct.all source.document.text).filterMap (Construct.command? source.document) :=
  (Parser.whole_tells source).2 passed

theorem construct_of_command {line : CommandLine} {place : Location}
    (member : (line, place) ∈ source.commands) :
    ∃ start, .commandLine start line ∈ Construct.all source.document.text ∧
      place = source.document.nameLocation start line := by
  rw [commands_eq passed] at member
  obtain ⟨construct, found, gives⟩ := List.mem_filterMap.1 member
  cases construct with
  | inline opening => cases gives
  | commandLine start other =>
      obtain ⟨rfl, rfl⟩ := Prod.mk.inj (Option.some.inj gives)
      exact ⟨start, found, rfl⟩

/-- Every jump is that of a command. -/
theorem command_of_flow (member : event ∈ source.flows) :
    ∃ line nameStart restStart, (line, event.commandLocation) ∈ source.commands ∧
      event = source.document.jump (String.ofList line.name) nameStart line.rest restStart := by
  rw [flows_eq passed] at member
  obtain ⟨construct, found, gives⟩ := List.mem_filterMap.1 member
  obtain ⟨start, line, rfl, jumps, rfl⟩ := Construct.jump?_eq_some gives
  refine ⟨line, line.nameStart start, line.restStart start, ?_, rfl⟩
  rw [commands_eq passed, Document.commandLocation_jump]
  refine List.mem_filterMap.2 ⟨_, found, ?_⟩
  rw [Construct.command?, Document.span_name]

/-- The command of a jump inside the file tells which label it leads to. -/
theorem label_of_flow {line : CommandLine} (member : event ∈ source.flows)
    (command : (line, event.commandLocation) ∈ source.commands)
    (inFile : String.ofList line.name = "goto" ∨ String.ofList line.name = "gosub")
    (plain : line.rest.head? ≠ some '{') :
    event.command = String.ofList line.name ∧
      event.label = String.ofList (line.rest.takeWhile Text.isLabel) := by
  obtain ⟨other, nameStart, restStart, among, same⟩ := command_of_flow passed member
  obtain rfl := congrArg Prod.fst (command_unique command among rfl)
  rw [same]
  exact ⟨Document.command_jump .., Document.label_jump inFile plain⟩

/-- A command line that jumps gives its jump, unless its arguments are missing. -/
theorem mem_flows {start : Nat} {line : CommandLine}
    (found : .commandLine start line ∈ Construct.all source.document.text)
    (jumps : String.ofList line.name ∈ Vocabulary.flowCommands)
    (given : String.ofList line.name ∈ Vocabulary.argumentCommands → Text.blank line.rest = false) :
    source.document.jump (String.ofList line.name) (line.nameStart start) line.rest
      (line.restStart start) ∈ source.flows := by
  have noLabel : String.ofList line.name ≠ "label" := by
    intro label
    rw [label] at jumps
    exact absurd jumps (by decide)
  have notMissing : ¬ (String.ofList line.name ∈ Vocabulary.argumentCommands ∧
      Text.blank line.rest = true) := fun ⟨needs, blank⟩ => by simp [given needs] at blank
  rw [flows_eq passed]
  refine List.mem_filterMap.2 ⟨_, found, ?_⟩
  simp only [Construct.jump?, Construct.signpost?, Document.signpost?, Document.post?,
    if_neg noLabel, if_neg notMissing, if_pos jumps]
  rfl

/-- A command line for a label gives the label that its arguments start with. -/
theorem mem_labels {start : Nat} {line : CommandLine}
    (found : .commandLine start line ∈ Construct.all source.document.text)
    (label : String.ofList line.name = "label") (given : line.rest.takeWhile Text.isLabel ≠ []) :
    (String.ofList (line.rest.takeWhile Text.isLabel), source.document.span (line.restStart start)
      (line.rest.takeWhile Text.isLabel)) ∈ source.labels := by
  have notMissing : ¬ (String.ofList line.name ∈ Vocabulary.argumentCommands ∧
      Text.blank line.rest = true) := fun ⟨_, blank⟩ => by simp [Text.not_blank_of_label given] at blank
  rw [labels_eq passed]
  refine List.mem_filterMap.2 ⟨_, found, ?_⟩
  simp only [Construct.label?, Construct.signpost?, Document.signpost?, Document.post?, if_pos label,
    if_neg notMissing, Document.label?, if_neg given]
  rfl

theorem label_of_command {line : CommandLine} {place : Location} (member : (line, place) ∈ source.commands)
    (label : String.ofList line.name = "label") (given : line.rest.takeWhile Text.isLabel ≠ []) :
    ∃ location, (String.ofList (line.rest.takeWhile Text.isLabel), location) ∈ source.labels := by
  obtain ⟨start, found, -⟩ := construct_of_command passed member
  exact ⟨_, mem_labels passed found label given⟩

end Passed

end Source

end ChoiceScript
