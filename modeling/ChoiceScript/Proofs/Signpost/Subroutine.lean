import ChoiceScript.Proofs.Index.Fidelity
import ChoiceScript.Proofs.Index.Subroutine
import ChoiceScript.Proofs.Signpost.Document

/-! # Calls of subroutines

A subroutine runs from the first place of its label to the topmost return below the line of the label.
A variable of a document counts as created at the first call of a subroutine in which it is first
created, in the order of the document.
-/

namespace ChoiceScript

namespace Source

variable {source : Source}

/-- A location is the first one of a label. -/
structure FirstLabel (source : Source) (name : String) (location : Location) : Prop where
  member : (name, location) ∈ source.labels
  first : ∀ other, (name, other) ∈ source.labels → location.range.start ≤ other.range.start

/-- A return stands below the line of a label. -/
structure ReturnBelow (source : Source) (label exit : Location) : Prop where
  returns : ∃ line, (line, exit) ∈ source.commands ∧ String.ofList line.name = "return"
  below : label.range.start.line < exit.range.start.line

/-- A subroutine runs from its label to the topmost return below. -/
structure Runs (source : Source) (label exit : Location) : Prop extends
    source.ReturnBelow label exit where
  topmost : ∀ other, source.ReturnBelow label other → exit.range.start ≤ other.range.start

/-- A call leads to a subroutine of its document in which a location stands. -/
structure Reaches (source : Source) (call : FlowEvent) (location : Location) : Prop where
  member : call ∈ source.flows
  gosub : call.command = "gosub"
  inside : ∃ label exit, source.FirstLabel call.label label ∧ source.Runs label exit ∧
    label.range.stop ≤ location.range.start ∧ location.range.start ≤ exit.range.start

/-- A call stands before all others that reach a location. -/
structure FirstReaches (source : Source) (call : FlowEvent) (location : Location) : Prop extends
    source.Reaches call location where
  first : ∀ other, source.Reaches other location →
    call.commandLocation.range.start ≤ other.commandLocation.range.start

theorem flows_rising (source : Source) : source.flows.Pairwise fun a b =>
    a.commandLocation.range.start < b.commandLocation.range.start :=
  source.flows_apart.imp fun apart => apart _ List.mem_cons_self _ List.mem_cons_self

/-- The first label is the one that is kept. -/
theorem lookup_labels {name : String} {location : Location} :
    source.labels.lookup name = some location ↔ source.FirstLabel name location := by
  rw [lookup_eq_some_iff_first (·.range.start) source.labels_apart]
  exact ⟨fun ⟨member, first⟩ => ⟨member, first⟩, fun ⟨member, first⟩ => ⟨member, first⟩⟩

section Passed

variable (passed : (Parser.whole.run source).1 = .ok ())

include passed

/-- The returns are the commands for it. -/
theorem return_iff {exit : Location} :
    (∃ line, (line, exit) ∈ source.commands ∧ String.ofList line.name = "return") ↔
      ∃ event ∈ source.flows, event.command = "return" ∧ event.commandLocation = exit := by
  constructor
  · rintro ⟨line, member, name⟩
    obtain ⟨start, found, rfl⟩ := construct_of_command passed member
    have jumps : String.ofList line.name ∈ Vocabulary.flowCommands := by rw [name]; decide
    have noArguments : String.ofList line.name ∉ Vocabulary.argumentCommands := by rw [name]; decide
    refine ⟨_, mem_flows passed found jumps fun needs => absurd needs noArguments, ?_, ?_⟩
    · rw [Document.command_jump, name]
    · rw [Document.commandLocation_jump, Document.span_name]
  · rintro ⟨event, member, command, rfl⟩
    obtain ⟨line, nameStart, restStart, among, same⟩ := command_of_flow passed member
    refine ⟨line, among, ?_⟩
    rw [← command, same, Document.command_jump]

theorem returnBelow_iff {label exit : Location} : source.ReturnBelow label exit ↔
    ∃ event ∈ source.flows, (event.command = "return" ∧
      label.range.start.line < event.commandLocation.range.start.line) ∧
        event.commandLocation = exit := by
  constructor
  · rintro ⟨returns, below⟩
    obtain ⟨event, member, command, rfl⟩ := (return_iff passed).1 returns
    exact ⟨event, member, ⟨command, below⟩, rfl⟩
  · rintro ⟨event, member, ⟨command, below⟩, rfl⟩
    exact ⟨(return_iff passed).2 ⟨event, member, command, rfl⟩, below⟩

/-- The return that is picked for a label is the topmost below its line. -/
theorem firstReturnAfter_iff {label exit : Location} :
    (ProjectIndex.firstReturnAfter (source.flows.filter (·.command = "return")) label).map
        (·.commandLocation) = some exit ↔ source.Runs label exit := by
  rw [ProjectIndex.firstReturnAfter, List.find?_filter, Option.map_eq_some_iff]
  simp only [find?_eq_some_iff_first _ source.flows_rising, decide_eq_true_eq]
  constructor
  · rintro ⟨event, ⟨⟨member, wanted⟩, least⟩, rfl⟩
    refine ⟨(returnBelow_iff passed).2 ⟨event, member, wanted, rfl⟩, fun other below => ?_⟩
    obtain ⟨another, among, wantedToo, rfl⟩ := (returnBelow_iff passed).1 below
    exact least another among wantedToo
  · rintro ⟨below, topmost⟩
    obtain ⟨event, member, wanted, rfl⟩ := (returnBelow_iff passed).1 below
    refine ⟨event, ⟨⟨member, wanted⟩, fun other among wantedToo => ?_⟩, rfl⟩
    exact topmost _ ((returnBelow_iff passed).2 ⟨other, among, wantedToo, rfl⟩)

/-- A call reaches a location in an index if it does in the document. -/
theorem reaches_iff {index : DocumentIndex} {call : FlowEvent} {location : Location}
    (labels : ∀ name, index.labels.get? name = source.labels.lookup name)
    (flows : index.flowEvents = source.flows) :
    source.Reaches call location ↔ call ∈ source.flows ∧ call.command = "gosub" ∧
      ProjectIndex.callReaches index location call = true := by
  have inside : ProjectIndex.callReaches index location call = true ↔
      ∃ label exit, source.FirstLabel call.label label ∧ source.Runs label exit ∧
        label.range.stop ≤ location.range.start ∧ location.range.start ≤ exit.range.start := by
    simp only [ProjectIndex.callReaches_iff, labels, flows, lookup_labels,
      ← firstReturnAfter_iff passed, Option.map_eq_some_iff, ProjectIndex.subroutineHolds,
      Bool.and_eq_true, decide_eq_true_eq]
    constructor
    · rintro ⟨label, event, first, picked, holds⟩
      exact ⟨label, _, first, ⟨event, picked, rfl⟩, holds⟩
    · rintro ⟨label, _, first, ⟨event, picked, rfl⟩, holds⟩
      exact ⟨label, event, first, picked, holds⟩
  rw [inside]
  exact ⟨fun ⟨member, gosub, around⟩ => ⟨member, gosub, around⟩,
    fun ⟨member, gosub, around⟩ => ⟨member, gosub, around⟩⟩

/-- The first call that reaches a location in an index is the first in the document. -/
theorem firstReaches_iff {index : DocumentIndex} {call : FlowEvent} {location : Location}
    (labels : ∀ name, index.labels.get? name = source.labels.lookup name)
    (flows : index.flowEvents = source.flows) :
    (index.flowEvents.find? fun call =>
        call.command = "gosub" ∧ ProjectIndex.callReaches index location call = true) = some call ↔
      source.FirstReaches call location := by
  have reaches {call : FlowEvent} : source.Reaches call location ↔ _ := reaches_iff passed labels flows
  rw [flows, find?_eq_some_iff_first _ source.flows_rising]
  simp only [decide_eq_true_eq]
  constructor
  · rintro ⟨wanted, least⟩
    refine ⟨reaches.2 wanted, fun other among => ?_⟩
    obtain ⟨member, wantedToo⟩ := reaches.1 among
    exact least other member wantedToo
  · rintro ⟨wanted, first⟩
    refine ⟨reaches.1 wanted, fun other member wantedToo => ?_⟩
    exact first other (reaches.2 ⟨member, wantedToo⟩)

end Passed

section Indexed

variable {project : ProjectIndex} {isStartup : Bool} {name : String} {created place : Location}
  (sumsUp : (project.document source.document.uri).SumsUp source.document isStartup source.stream)

include sumsUp

/-- Only variables of the document count as created by a call. -/
theorem local_of_mem_effectiveCreations
    (member : name ∈ (project.effectiveCreations source.document.uri).keys) :
    ∃ created, (names (·.isLocal isStartup) source.stream).lookup name = some created := by
  rw [← Option.isSome_iff_exists, ← Option.ne_none_iff_isSome]
  intro unknown
  have absent : (project.effectiveCreations source.document.uri).get? name = none := by
    rw [ProjectIndex.get?_effectiveCreations, sumsUp.localVariables.get?, unknown, Option.bind_none]
  exact OrderedMap.get?_eq_none.1 absent member

variable (passed : (Parser.whole.run source).1 = .ok ())
  (first : (names (·.isLocal isStartup) source.stream).lookup name = some created)

include passed first

theorem get?_effectiveCreations_iff :
    (project.effectiveCreations source.document.uri).get? name = some place ↔
      ∃ call, source.FirstReaches call created ∧ call.commandLocation = place := by
  rw [ProjectIndex.get?_effectiveCreations, sumsUp.localVariables.get?, first, Option.bind_some,
    Option.map_eq_some_iff]
  simp only [firstReaches_iff passed sumsUp.labels.get? sumsUp.flowEvents]

theorem get?_effectiveCreations_eq_none :
    (project.effectiveCreations source.document.uri).get? name = none ↔
      ¬ ∃ call, source.Reaches call created := by
  have flows : (project.document source.document.uri).flowEvents = source.flows := sumsUp.flowEvents
  rw [ProjectIndex.get?_effectiveCreations, sumsUp.localVariables.get?, first, Option.bind_some,
    Option.map_eq_none_iff, List.find?_eq_none, not_exists, flows]
  simp only [reaches_iff passed sumsUp.labels.get? flows, decide_eq_true_eq, not_and]

end Indexed

/-- When a document is taken into the index of a project, its variables count as created at the first
call of a subroutine in which they are first created, if there is one, and no other name counts as
created by a call. The return at which a subroutine ends is the topmost below the line of its label. -/
theorem effectiveCreations_exact {index project : ProjectIndex} {documentIndex : DocumentIndex}
    {isStartup : Bool}
    (updated : index.update source.document isStartup source.startupFile = .ok (documentIndex, project)) :
    (∀ name created, (names (·.isLocal isStartup) source.stream).lookup name = some created →
      (∀ place, (project.effectiveCreations source.document.uri).get? name = some place ↔
        ∃ call, source.FirstReaches call created ∧ call.commandLocation = place) ∧
      ((project.effectiveCreations source.document.uri).get? name = none ↔
        ¬ ∃ call, source.Reaches call created)) ∧
    (∀ name ∈ (project.effectiveCreations source.document.uri).keys,
      ∃ created, (names (·.isLocal isStartup) source.stream).lookup name = some created) ∧
    ∀ label exit,
      (ProjectIndex.firstReturnAfter (documentIndex.flowEvents.filter (·.command = "return")) label).map
        (·.commandLocation) = some exit ↔ source.Runs label exit := by
  have sums := index.update_sums_up source.document isStartup source.startupFile
  cases read : source.reports with
  | error fault =>
      rw [read, updated] at sums
      cases sums
  | ok reports =>
      rw [read] at sums
      obtain ⟨_, _, again, sumsUp, stored, -⟩ := sums
      obtain ⟨rfl, rfl⟩ := Prod.mk.inj (Except.ok.inj (updated.symm.trans again))
      have passed := passed_of_reports read
      obtain rfl := reports_eq_ok read
      have known : project.document source.document.uri = documentIndex := by
        rw [ProjectIndex.document, stored, Option.getD_some]
      rw [← known] at sumsUp ⊢
      refine ⟨fun name created first => ⟨fun place => ?_, ?_⟩, fun name member => ?_, fun label exit => ?_⟩
      · exact get?_effectiveCreations_iff sumsUp passed first
      · exact get?_effectiveCreations_eq_none sumsUp passed first
      · exact local_of_mem_effectiveCreations sumsUp member
      · rw [sumsUp.flowEvents]
        exact firstReturnAfter_iff passed

/-- A scene that calls a subroutine twice, which creates one of its variables. -/
def calling : Source :=
  ⟨⟨"file:///game/a.txt",
    "*gosub setup\n*gosub setup\n*finish\n*label setup\n*temp torch 1\n*return\n*temp after 2\n".toList,
    0⟩, "startup.txt"⟩

/-- The variable in the subroutine counts as created at the first call, and the other one does not
count as created by a call. -/
theorem calling_first_reaches : ∃ documentIndex project,
    ({} : ProjectIndex).update calling.document false calling.startupFile =
      .ok (documentIndex, project) ∧
    (∃ call, calling.FirstReaches call ⟨calling.document.uri, ⟨4, 6⟩, ⟨4, 11⟩, by decide⟩ ∧
      call.commandLocation = ⟨calling.document.uri, ⟨0, 1⟩, ⟨0, 6⟩, by decide⟩) ∧
    ¬ ∃ call, calling.Reaches call ⟨calling.document.uri, ⟨6, 6⟩, ⟨6, 11⟩, by decide⟩ := by
  have first : (names (·.isLocal false) calling.stream).lookup "torch" =
      some ⟨calling.document.uri, ⟨4, 6⟩, ⟨4, 11⟩, by decide⟩ := by decide +kernel
  have second : (names (·.isLocal false) calling.stream).lookup "after" =
      some ⟨calling.document.uri, ⟨6, 6⟩, ⟨6, 11⟩, by decide⟩ := by decide +kernel
  have places : (({} : ProjectIndex).update calling.document false calling.startupFile).map
      (fun made => ((made.2.effectiveCreations calling.document.uri).get? "torch",
        (made.2.effectiveCreations calling.document.uri).get? "after")) =
        .ok (some ⟨calling.document.uri, ⟨0, 1⟩, ⟨0, 6⟩, by decide⟩, none) := by decide +kernel
  cases updated : ({} : ProjectIndex).update calling.document false calling.startupFile with
  | error fault =>
      rw [updated] at places
      cases places
  | ok made =>
      obtain ⟨documentIndex, project⟩ := made
      rw [updated] at places
      obtain ⟨atCall, nowhere⟩ := Prod.mk.inj (Except.ok.inj places)
      obtain ⟨created, -, -⟩ := effectiveCreations_exact updated
      exact ⟨documentIndex, project, rfl, ((created _ _ first).1 _).1 atCall, (created _ _ second).2.1 nowhere⟩

end Source

end ChoiceScript
