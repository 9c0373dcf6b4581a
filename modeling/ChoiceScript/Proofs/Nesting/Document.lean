import ChoiceScript.Proofs.Index.Contents
import ChoiceScript.Proofs.Nesting.Command

/-! # The constructs of a document nest

At the top level of a document there are commands, replacements and multireplaces. Each is entered
where nothing else is being read, and what it reports stands in it. So the outermost construct around
an event is one of these, a command only there, and every reader leaves the constructs it found.
-/

namespace ChoiceScript

/-- Where the constructs at the top level of a document are read. -/
inductive Context.IsTop : Context → Prop
  | command (name : String) : IsTop ⟨some name, [.command]⟩
  | replacement : IsTop ⟨none, [.variableReference]⟩
  | multireplace : IsTop ⟨none, [.multireplacement]⟩

/-- An event stands in a construct at the top level, which is a command unless the event is a
reference. -/
def Event.Placed (event : Event) (place : Context) : Prop :=
  event.Named ∧ ∃ top : Context, top.IsTop ∧ top.Holds event place ∧
    (top.command = none → event.IsReference)

theorem Context.Holds.placed {top place : Context} {event : Event} (isTop : top.IsTop)
    (named : event.Named) (holds : top.Holds event place)
    (reference : top.command = none → event.IsReference) : event.Placed place :=
  ⟨named, top, isTop, holds, reference⟩

/-- No construct at the top level is a multireplace in another. -/
theorem Context.IsTop.shallow {top : Context} (isTop : top.IsTop) : ¬ top.Deep := by
  cases isTop <;> simp [Context.Deep]

theorem Event.Placed.nested {event : Event} {place : Context} (placed : event.Placed place) :
    (place.command.isSome ↔ .command ∈ place.stack) ∧ .command ∉ place.stack.dropLast ∧
      place.stack.getLast? ≠ some .parentheses ∧
      (¬ event.IsReference → place.stack = [.command]) := by
  obtain ⟨-, top, isTop, ⟨command, inner, stack, noCommand, deeper⟩, reference⟩ := placed
  rw [command, stack]
  cases isTop with
  | command name =>
      refine ⟨by simp, by simpa using noCommand, by simp, fun other => ?_⟩
      have here : inner = [] := Classical.byContradiction fun some => other (deeper some)
      rw [here, List.nil_append]
  | replacement =>
      exact ⟨by simpa using noCommand, by simpa using noCommand, by simp,
        fun other => absurd (reference rfl) other⟩
  | multireplace =>
      exact ⟨by simpa using noCommand, by simpa using noCommand, by simp,
        fun other => absurd (reference rfl) other⟩

namespace Parser

variable {source : Source} {stack : List Element}

/-- What a document says is placed. -/
abbrev Settled (source : Source) (parser : Parser Unit) : Prop :=
  Tells source ⟨none, []⟩ Event.Placed False parser

/-- A command is reported first, where it stands, and after it only what it says. -/
theorem command_adds {padding spacing line : Text} {name : String} {index : Int} {location : Location}
    {allowed : Event → Prop}
    (located : source.document.locationAt index (index + name.length) = .ok location)
    (nests : Nests source allowed ⟨some name, .command :: stack⟩
      (arguments name line index (index + name.length + spacing.length))) :
    Adds source ⟨none, stack⟩ True (fun _ => True)
      (fun new => ∃ more,
        new = .event (.command padding name spacing line location) ⟨some name, .command :: stack⟩ :: more ∧
        Tidy (fun event place => allowed event ∧ Context.Holds ⟨some name, .command :: stack⟩ event place)
          (Context.Deep ⟨some name, .command :: stack⟩) more)
      (command padding name spacing line index) := by
  apply Adds.duringCommand
  apply Adds.afterLocate located
  apply Adds.afterEmit
  refine Adds.mono (?_ : Nests source allowed ⟨some name, .command :: stack⟩ _)
    (fun _ given => given) fun more tidy => ⟨more, rfl, tidy⟩
  split
  · exact .complain (by decide)
  split
  · exact .complain (by decide)
  split
  · apply Tells.isStartup.bind
    intro startup
    split
    · exact Tells.bind (.complain (by decide)) fun _ => nests
    · exact nests
  · exact nests

theorem nests_command {padding spacing line : Text} {name : String} {index : Int} :
    Tells source ⟨none, stack⟩
      (fun event place => event.Named ∧ Context.Holds ⟨some name, .command :: stack⟩ event place)
      (Context.Deep ⟨some name, .command :: stack⟩) (command padding name spacing line index) := by
  apply Adds.mono (command_adds (Document.locationAt_eq (by omega)) nests_arguments)
    (fun _ given => given)
  rintro new ⟨more, rfl, tidy⟩
  have later := tidy.mono (fun event place held => And.intro held.1.named held.2) id
  exact Tidy.append (.single ⟨trivial, Context.holds_self _ _⟩ id) later

theorem settled_opening {text : Text} {opening : Opening} :
    Settled source (openingWith text (descent text.length) 0 opening) := by
  have references : ∀ event : Event, event.RefersByWord → event.IsReference := fun _ held => held.1
  unfold openingWith
  split
  · apply Adds.discard
    apply Adds.within
    apply Adds.giving ((nests_referenceContents (nests_descent _)).mono _ _)
    · exact fun event place held => held.2.placed .replacement held.1.2 fun _ => held.1.1
    · exact Context.IsTop.replacement.shallow
  · apply Adds.discard
    apply Tells.afterIsInside
    apply Adds.within
    apply Adds.giving (nests_multireplaceContents references (nests_descent _) _ _)
    · exact fun event place held inside => inside.placed .multireplace held.2 fun _ => held.1
    · exact fun _ => Context.IsTop.multireplace.shallow

theorem settled_construct (construct : Construct) : Settled source (Parser.construct construct) := by
  cases construct with
  | inline opening =>
      apply Tells.readDocument fun _ => rfl
      exact settled_opening
  | commandLine start line =>
      apply nests_command.mono
      · exact fun event place held => held.2.placed (.command _) held.1 fun none => by cases none
      · exact (Context.IsTop.command _).shallow

theorem settled_whole (source : Source) : Settled source whole := by
  apply Tells.readDocument fun _ => rfl
  exact .forM fun construct _ => settled_construct construct

/-- The readers of the constructs of a document. -/
inductive IsReader : {α : Type} → Parser α → Prop
  | expression (text : Text) (index : Int) : IsReader (expression text index)
  | lexedExpression (lexed : Expression) : IsReader (lexedExpression lexed)
  | reference (text : Text) (openLength origin : Int) (start : Nat) :
      IsReader (reference text openLength origin start)
  | parentheses (text : Text) (origin : Int) (start : Nat) : IsReader (parentheses text origin start)
  | string (text : Text) (origin : Int) (start : Nat) : IsReader (string text origin start)
  | prose (text : Text) (origin : Int) (start stop : Nat) : IsReader (prose text origin start stop)
  | multireplace (text : Text) (openLength origin : Int) (start : Nat) :
      IsReader (multireplace text openLength origin start)
  | complainNested (text : Text) (multireplace : Multireplace) (origin : Int) :
      IsReader (complainNested text multireplace origin)
  | checkValue (lexed : Expression) : IsReader (checkValue lexed)
  | checkCondition (lexed : Expression) : IsReader (checkCondition lexed)
  | symbolCommand (name : String) (line : Text) (lineIndex : Int) :
      IsReader (symbolCommand name line lineIndex)
  | params (line : Text) (lineIndex : Int) : IsReader (params line lineIndex)
  | set (line : Text) (lineIndex : Int) : IsReader (set line lineIndex)
  | condition (name : String) (line : Text) (lineIndex : Int) :
      IsReader (condition name line lineIndex)
  | flow (name : String) (commandIndex : Int) (line : Text) (lineIndex : Int) :
      IsReader (flow name commandIndex line lineIndex)
  | sceneList (start : Nat) : IsReader (sceneList start)
  | statChart (commandIndex : Int) (start : Nat) : IsReader (statChart commandIndex start)
  | statVariable (index : Nat) : IsReader (statVariable index)
  | command (padding : Text) (name : String) (spacing line : Text) (index : Int) :
      IsReader (command padding name spacing line index)

/-- A reader that is called in any constructs comes back to them, also when it fails. -/
theorem IsReader.leaves {α : Type} {parser : Parser α} (reader : IsReader parser) (source : Source)
    (progress : Progress) : (parser source progress).2.stack = progress.stack := by
  have references : ∀ event : Event, event.RefersByWord → event.IsReference := fun _ held => held.1
  have nests : ∀ length, (descent length).Nests source Event.RefersByWord := nests_descent
  cases reader with
  | expression text index => exact (nests_expression text index).comesBack.2
  | lexedExpression lexed =>
      have reads : Nests source Event.IsReference ⟨progress.command, progress.stack⟩
          (Parser.lexedExpression lexed) :=
        nests_lexedExpression (fun _ held => held) references fun _ _ _ _ => trivial
      exact reads.comesBack.2
  | reference => exact (nests_referenceWith references (nests _)).comesBack.2
  | parentheses => exact (nests_parenthesesWith references (nests _)).comesBack.2
  | string => exact (nests_stringWith references (nests _)).comesBack.2
  | prose => exact (nests_proseWith references (nests _)).comesBack.2
  | multireplace => exact (nests_multireplaceWith references (nests _)).comesBack.2
  | complainNested text multireplace origin =>
      have reads : Nests source Event.Named ⟨progress.command, progress.stack⟩
          (Parser.complainNested text multireplace origin) := nests_complainNested
      exact reads.comesBack.2
  | checkValue lexed =>
      have reads : Nests source Event.Named ⟨progress.command, progress.stack⟩
          (Parser.checkValue lexed) := nests_checkValue
      exact reads.comesBack.2
  | checkCondition lexed =>
      have reads : Nests source Event.Named ⟨progress.command, progress.stack⟩
          (Parser.checkCondition lexed) := nests_checkCondition
      exact reads.comesBack.2
  | symbolCommand => exact nests_symbolCommand.comesBack.2
  | params => exact nests_params.comesBack.2
  | set => exact nests_set.comesBack.2
  | condition => exact nests_condition.comesBack.2
  | flow => exact nests_flow.comesBack.2
  | sceneList => exact nests_sceneList.comesBack.2
  | statChart => exact nests_statChart.comesBack.2
  | statVariable => exact nests_statVariable.comesBack.2
  | command padding name spacing line index =>
      -- The command that was being read before makes no difference.
      have same : Parser.command padding name spacing line index source progress =
          Parser.command padding name spacing line index source { progress with command := none } := rfl
      rw [same]
      exact nests_command.comesBack.2

end Parser

theorem Source.tidy_stream (source : Source) : Tidy Event.Placed False source.stream :=
  (Parser.settled_whole source).holds_run

/-- In reading a document only errors of reading are found. -/
theorem Document.Reads.errors_ofReading {document : Document} {startupFile : String} {isStartup : Bool}
    {summary : Summary} {index : DocumentIndex}
    (reads : document.Reads startupFile isStartup summary index) :
    ∀ diagnostic ∈ index.errors, diagnostic.OfReading :=
  fun _ member => (Source.tidy_stream _).errors (reads.mem_errors.1 member)

namespace Source

/-- Every reader leaves the constructs that it was called in as they were, also when it fails. In
reading a document a command is being read exactly if one is around an event, it is the outermost
construct, and the only one unless the event is a reference; the outermost is never a group in
parentheses. What stands in two multireplaces comes after an error that says so. -/
theorem constructs_nest :
    (∀ {α : Type} (parser : Parser α), Parser.IsReader parser → ∀ source progress,
      (parser source progress).2.stack = progress.stack) ∧
    ∀ source : Source,
      (∀ event place, .event event place ∈ source.stream →
        (place.command.isSome ↔ .command ∈ place.stack) ∧ .command ∉ place.stack.dropLast ∧
          place.stack.getLast? ≠ some .parentheses ∧
          (¬ event.IsReference → place.stack = [.command])) ∧
      ∀ before event place after, source.stream = before ++ .event event place :: after →
        2 ≤ place.stack.count .multireplacement →
        ∃ diagnostic, .error diagnostic ∈ before ∧
          diagnostic.code = Notice.multireplaceNested.code := by
  refine ⟨fun parser reader => reader.leaves, fun source => ⟨?_, ?_⟩⟩
  · intro event place member
    exact (source.tidy_stream.fits member).nested
  · intro before event place after split deep
    exact (source.tidy_stream.told split deep).resolve_left id

/-- A command, and a multireplace in the test of another. -/
def tangled : Source :=
  ⟨⟨"file:///game/town.txt", "*set gold 1\n@\x7b(\"@\x7brich a|b\x7d\") c|d\x7d\n".toList, 0⟩,
    "startup.txt"⟩

/-- The inner multireplace mentions a variable, after the error. -/
theorem tangled_nests :
    (Parser.multireplace tangled.document.text 2 0 17 tangled ⟨none, [.parentheses], []⟩).2.stack =
      [.parentheses] ∧
    (∃ event place, .event event place ∈ tangled.stream ∧ ¬ event.IsReference ∧
      place.stack = [.command]) ∧
    ∃ before event place, tangled.stream = before ++ [.event event place] ∧
      place.stack.count .multireplacement = 2 ∧
      ∃ diagnostic, .error diagnostic ∈ before ∧
        diagnostic.code = Notice.multireplaceNested.code := by
  obtain ⟨leaves, nest⟩ := constructs_nest
  obtain ⟨placed, told⟩ := nest tangled
  let set : Location := ⟨"file:///game/town.txt", ⟨⟨0, 1⟩, ⟨0, 4⟩, by decide⟩⟩
  let rich : Location := ⟨"file:///game/town.txt", ⟨⟨1, 6⟩, ⟨1, 10⟩, by decide⟩⟩
  have first : .event (.command [] "set" [' '] "gold 1".toList set) ⟨some "set", [.command]⟩ ∈
      tangled.stream := by decide +kernel
  have last : tangled.stream = tangled.stream.take 3 ++
      [.event (.symbol .reference "rich" rich) ⟨none, [.multireplacement, .multireplacement]⟩] := by
    decide +kernel
  refine ⟨leaves _ (.multireplace ..) tangled _, ?_, ?_⟩
  · exact ⟨_, _, first, id, (placed _ _ first).2.2.2 id⟩
  · exact ⟨_, _, _, last, rfl, told _ _ _ [] last (by decide)⟩

end Source

end ChoiceScript
