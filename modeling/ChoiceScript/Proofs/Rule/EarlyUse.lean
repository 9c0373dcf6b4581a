import ChoiceScript.Proofs.Index.Subroutine
import ChoiceScript.Proofs.Mention.Document
import ChoiceScript.Proofs.Nesting.Document
import ChoiceScript.Proofs.Rule.Kinds
import ChoiceScript.Proofs.Rule.VariableUse

/-! # Which uses of variables come too early

A use of a variable is found too early if it ends before the creation of the variable starts, where a
variable of a subroutine counts as created at the first call. So a call above its subroutine excuses
the uses between them, and a call below makes the uses from the creation on to the call too early.
-/

namespace ChoiceScript

namespace Rule

/-- The error that a variable is used before it is created, where it is used. -/
def earlyError (name : String) (range : Range) : Diagnostic where
  code := Notice.usedBeforeCreation.code
  message := "Variable \"" ++ name ++ "\" used before it was created"
  range
  severity := Notice.usedBeforeCreation.severity
  hint := Notice.usedBeforeCreation.hint
  category := some Notice.usedBeforeCreation.category

theorem onRange_early (name : String) (range : Range) :
    Notice.usedBeforeCreation.onRange range [("variable", name)] = .ok (earlyError name range) := rfl

theorem earlyError_inj {name other : String} {range elsewhere : Range} :
    earlyError name range = earlyError other elsewhere ↔ name = other ∧ range = elsewhere := by
  simp [earlyError]

variable {inspection : Inspection}

/-- How many of some uses are at a range and precede a creation. -/
def earlyUses (creation? : Option Location) (range : Range) (uses : List Location) : Nat :=
  match creation? with
  | some creation => uses.countP fun location => location.range = range && precedes location creation
  | none => 0

theorem count_early_variableDiagnostics {place use name : String} {range : Range}
    {locations : List Location} {found : List Diagnostic}
    (passed : variableDiagnostics inspection place use locations = .ok found) :
    found.count (earlyError name range) =
      if use = name then earlyUses (inspection.creation? name) range locations else 0 := by
  unfold variableDiagnostics at passed
  split at passed
  · rename_i creation created
    rw [Outcome.mapM_eq fun location _ => onRange_early use location.range] at passed
    obtain rfl := Except.ok.inj passed
    rw [List.count, List.countP_map, List.countP_filter]
    split
    · rename_i same
      subst same
      rw [created, earlyUses]
      apply List.countP_congr
      intro location _
      simp [earlyError_inj]
    · rename_i other
      rw [List.countP_eq_zero]
      intro location _
      simp [earlyError_inj, other]
  · rename_i uncreated
    have undefined : ∀ diagnostic ∈ found, diagnostic.code = Notice.undefinedVariable.code := by
      split at passed
      · obtain rfl := Except.ok.inj passed
        intro diagnostic member
        cases member
      · intro diagnostic member
        obtain ⟨location, -, made⟩ := (Outcome.mem_mapM passed).1 member
        exact Notice.code_of_onRange made
    have absent : earlyError name range ∉ found := by
      intro member
      have apart : Notice.usedBeforeCreation.code ≠ Notice.undefinedVariable.code := by decide
      exact apart (undefined _ member)
    rw [List.count_eq_zero.2 absent]
    split
    · rename_i same
      subst same
      rw [uncreated, earlyUses]
    · rfl

theorem count_early_variableUse {isStartup : Bool} {found : List Diagnostic}
    (startup : inspection.index.isStartup inspection.document.uri = .ok isStartup)
    (passed : variableUse.run inspection = .ok found) (name : String) (range : Range) :
    found.count (earlyError name range) = earlyUses (inspection.creation? name) range
      ((inspection.documentIndex.references.get? name).getD []) := by
  refine count_of_variableUse ?_ startup passed fun _ _ _ => count_early_variableDiagnostics
  cases inspection.creation? name <;> rfl

/-- In a document the uses at a range precede a creation together, or none of them does. -/
theorem earlyUses_inside {document : Document} {creation : Location} {range : Range}
    {uses : List Location} (inside : creation.uri = document.uri)
    (among : ∀ location ∈ uses, location.uri = document.uri) :
    earlyUses (some creation) range uses =
      if range.stop < creation.range.start then uses.countP (·.range = range) else 0 := by
  have each : ∀ location ∈ uses, (location.range = range && precedes location creation) = true ↔
      (location.range = range && decide (range.stop < creation.range.start)) = true := by
    intro location member
    have same : location.uri = creation.uri := (among location member).trans inside.symm
    by_cases here : location.range = range
    · simp [precedes, same, here]
    · simp [here]
  rw [earlyUses, List.countP_congr each]
  by_cases before : range.stop < creation.range.start
  · simp [before]
  · simp [before]

end Rule

/-- A document to be checked as if no subroutine were called. -/
def Inspection.uncalled (document : Document) (index : ProjectIndex) : Inspection :=
  ⟨document, index, ∅⟩

namespace ProjectIndex

variable {project : ProjectIndex} {document : Document} {isStartup : Bool} {summary : Summary}
  {name : String} {range : Range}

/-- A variable counts as created at a call that starts after a range. -/
def CalledAfter (project : ProjectIndex) (uri name : String) (range : Range) : Prop :=
  ∃ call, (project.effectiveCreations uri).get? name = some call ∧ range.stop < call.range.start

/-- What counts as created at a call is created in the file of the call. -/
theorem created_of_called {uri : String} {call : Location}
    (called : (project.effectiveCreations uri).get? name = some call) :
    ∃ created, (project.document uri).localVariables.get? name = some created ∧
      ∃ event ∈ (project.document uri).flowEvents, event.commandLocation = call := by
  rw [get?_effectiveCreations] at called
  obtain ⟨created, known, first⟩ := Option.bind_eq_some_iff.1 called
  obtain ⟨event, found, same⟩ := Option.map_eq_some_iff.1 first
  exact ⟨created, known, event, List.mem_of_find?_eq_some found, same⟩

section Reads

variable (reads : document.Reads project.startupFile isStartup summary (project.document document.uri))

include reads

/-- A use is found too early once for each time that the document mentions it, if it ends before the
creation of its variable starts. -/
theorem count_early_of_creation {calls : Creations} {found : List Diagnostic} {creation : Location}
    (passed : Rule.variableUse.run ⟨document, project, calls⟩ = .ok found)
    (created : Inspection.creation? ⟨document, project, calls⟩ name = some creation)
    (inside : creation.uri = document.uri) : found.count (Rule.earlyError name range) =
      if range.stop < creation.range.start then
        Source.timesMentioned ⟨document, project.startupFile⟩ name range else 0 := by
  have among : ∀ location ∈ ((project.document document.uri).references.get? name).getD [],
      location.uri = document.uri := by
    intro location member
    cases uses : (project.document document.uri).references.get? name with
    | none =>
        rw [uses] at member
        cases member
    | some locations =>
        rw [uses] at member
        exact (reads.faithful.references _ (OrderedMap.mem_of_get? uses) location member).uri
  let inspection : Inspection := ⟨document, project, calls⟩
  have startup : inspection.index.isStartup inspection.document.uri = .ok isStartup := reads.startup
  have counted : found.count (Rule.earlyError name range) =
      Rule.earlyUses (Inspection.creation? ⟨document, project, calls⟩ name) range
        (((project.document document.uri).references.get? name).getD []) :=
    Rule.count_early_variableUse startup passed name range
  rw [counted, created, Rule.earlyUses_inside inside among, reads.countP_references]

theorem creation_inside {created : Location}
    (known : (project.document document.uri).localVariables.get? name = some created) :
    created.uri = document.uri :=
  (reads.faithful.localVariables _ (OrderedMap.mem_of_get? known)).uri

/-- A variable that counts as created at a call is used too early up to there. -/
theorem count_early_called {uses : List Diagnostic} {call : Location}
    (usesRun : Rule.variableUse.run (.of document project) = .ok uses)
    (called : (project.effectiveCreations document.uri).get? name = some call) :
    uses.count (Rule.earlyError name range) = if range.stop < call.range.start then
      Source.timesMentioned ⟨document, project.startupFile⟩ name range else 0 := by
  obtain ⟨created, known, event, member, rfl⟩ := created_of_called called
  have counts : Inspection.creation? ⟨document, project, project.effectiveCreations document.uri⟩ name =
      some event.commandLocation := by
    simp only [Inspection.creation?, called, Option.some_or]
  exact count_early_of_creation reads usesRun counts (reads.faithful.flowEvents event member).command.uri

/-- Without calls a variable of a file is used too early up to its creation. -/
theorem count_early_uncalled {plain : List Diagnostic} {created : Location}
    (plainRun : Rule.variableUse.run (.uncalled document project) = .ok plain)
    (known : (project.document document.uri).localVariables.get? name = some created) :
    plain.count (Rule.earlyError name range) = if range.stop < created.range.start then
      Source.timesMentioned ⟨document, project.startupFile⟩ name range else 0 := by
  have counts : Inspection.creation? ⟨document, project, ∅⟩ name = some created := by
    have none : (∅ : Creations).get? name = none := rfl
    simp only [Inspection.creation?, none, Option.none_or, Inspection.documentIndex, known, Option.some_or]
  exact count_early_of_creation reads plainRun counts (creation_inside reads known)

/-- Calls change nothing for a variable that does not count as created at one. -/
theorem count_early_same {uses plain : List Diagnostic}
    (usesRun : Rule.variableUse.run (.of document project) = .ok uses)
    (plainRun : Rule.variableUse.run (.uncalled document project) = .ok plain)
    (uncalled : (project.effectiveCreations document.uri).get? name = none) :
    uses.count (Rule.earlyError name range) = plain.count (Rule.earlyError name range) := by
  have startup : (Inspection.of document project).index.isStartup
      (Inspection.of document project).document.uri = .ok isStartup := reads.startup
  have startupToo : (Inspection.uncalled document project).index.isStartup
      (Inspection.uncalled document project).document.uri = .ok isStartup := reads.startup
  have same : (Inspection.of document project).creation? name =
      (Inspection.uncalled document project).creation? name := by
    have none : (∅ : Creations).get? name = none := rfl
    simp only [Inspection.creation?, Inspection.of, Inspection.uncalled, uncalled, none]
    rfl
  rw [Rule.count_early_variableUse startup usesRun, same,
    Rule.count_early_variableUse startupToo plainRun]
  rfl

/-- A use that comes after the creation of its variable is found too early if its variable counts as
created at a call that comes after the use, and never otherwise. So taking variables for created at
calls adds an error for just those uses that are not before the creation but before the call, and for
all other uses can only take errors away. -/
theorem early_uses_exact :
    ∃ uses plain, Rule.variableUse.run (.of document project) = .ok uses ∧
      Rule.variableUse.run (.uncalled document project) = .ok plain ∧
      (∀ diagnostics, project.check document Rule.defaults = .ok diagnostics → ∀ name range,
        diagnostics.count (Rule.earlyError name range) = uses.count (Rule.earlyError name range)) ∧
      (∀ name created range, (project.document document.uri).localVariables.get? name = some created →
        created.range.stop ≤ range.start →
        plain.count (Rule.earlyError name range) = 0 ∧
        (project.CalledAfter document.uri name range → uses.count (Rule.earlyError name range) =
          Source.timesMentioned ⟨document, project.startupFile⟩ name range) ∧
        (¬ project.CalledAfter document.uri name range →
          uses.count (Rule.earlyError name range) = 0)) ∧
      ∀ name range,
        plain.count (Rule.earlyError name range) < uses.count (Rule.earlyError name range) ↔
          0 < Source.timesMentioned ⟨document, project.startupFile⟩ name range ∧
          project.CalledAfter document.uri name range ∧
          ∃ created, (project.document document.uri).localVariables.get? name = some created ∧
            ¬ range.stop < created.range.start := by
  have readable : Uri.Readable document.uri := Uri.readable_of_isStartup reads.startup
  obtain ⟨uses, usesRun⟩ : ∃ uses, Rule.variableUse.run (.of document project) = .ok uses :=
    Rule.variableUse_ok readable
  obtain ⟨plain, plainRun⟩ : ∃ plain, Rule.variableUse.run (.uncalled document project) = .ok plain :=
    Rule.variableUse_ok readable
  refine ⟨uses, plain, usesRun, plainRun, ?_, ?_, ?_⟩
  · intro diagnostics passed name range
    obtain ⟨found, foundRun, counts⟩ := count_check passed reads.errors_ofReading
    obtain rfl := Except.ok.inj (usesRun.symm.trans foundRun)
    exact counts _ rfl
  · intro name created range known after
    have ordered : created.range.start ≤ range.stop :=
      Position.le_trans created.range.start_le_stop (Position.le_trans after range.start_le_stop)
    have late : ¬ range.stop < created.range.start := fun early => Position.not_le.2 early ordered
    have without : plain.count (Rule.earlyError name range) = 0 := by
      rw [count_early_uncalled reads plainRun known, if_neg late]
    refine ⟨without, ?_, fun uncalled => ?_⟩
    · rintro ⟨call, called, before⟩
      rw [count_early_called reads usesRun called, if_pos before]
    · cases called : (project.effectiveCreations document.uri).get? name with
      | none => rw [count_early_same reads usesRun plainRun called, without]
      | some call =>
          rw [count_early_called reads usesRun called, if_neg fun before => uncalled ⟨call, called, before⟩]
  · intro name range
    cases called : (project.effectiveCreations document.uri).get? name with
    | none =>
        rw [count_early_same reads usesRun plainRun called]
        simp [CalledAfter, called]
    | some call =>
        obtain ⟨created, known, -⟩ := created_of_called called
        rw [count_early_called reads usesRun called, count_early_uncalled reads plainRun known]
        simp only [CalledAfter, called, known, Option.some.injEq, exists_eq_left']
        by_cases before : range.stop < call.range.start <;>
          by_cases early : range.stop < created.range.start <;> simp [before, early]

end Reads

/-- A scene that calls a subroutine from below, which uses a variable after creating it. -/
def calledBelow : Document :=
  ⟨"file:///game/a.txt",
    "*goto main\n*label sub\n*temp x 1\n*set x 2\n*return\n*label main\n*gosub sub\n*finish\n".toList, 0⟩

/-- The use stands after the creation, and is found too early. -/
theorem calledBelow_found_early : ∃ made diagnostics created,
    ({} : ProjectIndex).indexDocument calledBelow "startup.txt" = .ok made ∧
    made.project.check calledBelow Rule.defaults = .ok diagnostics ∧
    (made.project.document calledBelow.uri).localVariables.get? "x" = some created ∧
    created.range.stop ≤ ⟨3, 5⟩ ∧
    Rule.earlyError "x" ⟨⟨3, 5⟩, ⟨3, 6⟩, by decide⟩ ∈ diagnostics := by
  have found : (({} : ProjectIndex).indexDocument calledBelow "startup.txt" >>= fun made =>
      made.project.check calledBelow Rule.defaults >>= fun diagnostics =>
        .ok ((made.project.document calledBelow.uri).localVariables.get? "x",
          diagnostics.contains (Rule.earlyError "x" ⟨⟨3, 5⟩, ⟨3, 6⟩, by decide⟩))) =
      .ok (some ⟨calledBelow.uri, ⟨2, 6⟩, ⟨2, 7⟩, by decide⟩, true) := by decide +kernel
  obtain ⟨made, indexed, checked⟩ := Outcome.bind_eq_ok found
  obtain ⟨diagnostics, passed, same⟩ := Outcome.bind_eq_ok checked
  obtain ⟨known, contains⟩ := Prod.mk.inj (Except.ok.inj same)
  exact ⟨made, diagnostics, _, indexed, passed, known, by decide, List.contains_iff_mem.1 contains⟩

/-- It is found so once, and would not be if the call did not count. -/
theorem calledBelow_early_once : ∃ made uses plain,
    ({} : ProjectIndex).indexDocument calledBelow "startup.txt" = .ok made ∧
    Rule.variableUse.run (.of calledBelow made.project) = .ok uses ∧
    Rule.variableUse.run (.uncalled calledBelow made.project) = .ok plain ∧
    uses.count (Rule.earlyError "x" ⟨⟨3, 5⟩, ⟨3, 6⟩, by decide⟩) = 1 ∧
    plain.count (Rule.earlyError "x" ⟨⟨3, 5⟩, ⟨3, 6⟩, by decide⟩) = 0 := by
  have places : (({} : ProjectIndex).indexDocument calledBelow "startup.txt" >>= fun made =>
      .ok ((made.project.document calledBelow.uri).localVariables.get? "x",
        (made.project.effectiveCreations calledBelow.uri).get? "x")) =
      .ok (some ⟨calledBelow.uri, ⟨2, 6⟩, ⟨2, 7⟩, by decide⟩,
        some ⟨calledBelow.uri, ⟨6, 1⟩, ⟨6, 6⟩, by decide⟩) := by decide +kernel
  have once : Source.timesMentioned ⟨calledBelow, "startup.txt"⟩ "x" ⟨⟨3, 5⟩, ⟨3, 6⟩, by decide⟩ = 1 := by
    decide +kernel
  obtain ⟨made, indexed, same⟩ := Outcome.bind_eq_ok places
  obtain ⟨known, called⟩ := Prod.mk.inj (Except.ok.inj same)
  obtain ⟨summary, reads, project⟩ := indexDocument_eq_ok indexed
  have stored : made.project.document calledBelow.uri = made.document := by
    rw [project, document_afterReading, if_pos rfl]
  have startup : made.project.startupFile = "startup.txt" := by
    rw [project, startupFile_afterReading]
    rfl
  rw [← stored, ← startup] at reads
  obtain ⟨uses, plain, usesRun, plainRun, -, late, -⟩ := early_uses_exact reads
  obtain ⟨without, found, -⟩ := late "x" _ ⟨⟨3, 5⟩, ⟨3, 6⟩, by decide⟩ known (by decide)
  rw [startup] at found
  exact ⟨made, uses, plain, indexed, usesRun, plainRun,
    (found ⟨_, called, by decide⟩).trans once, without⟩

end ProjectIndex

end ChoiceScript
