import ChoiceScript.Index.Summary
import ChoiceScript.Proofs.OrderedMap
import ChoiceScript.Proofs.Outcome

/-! # What reports enter

Each field of a summary depends on some of the reports only, and takes in what these say one after
another. So the summary of a list of reports can be told field by field.
-/

namespace ChoiceScript

/-- Does a name in this role belong to its file? Names that are created for the whole project do in
all files but the startup file. -/
def SymbolRole.isLocal (isStartup : Bool) (role : SymbolRole) : Bool :=
  role = .localVariable || role = .globalVariable && !isStartup

namespace Report

/-- The name that a report tells of in one of the chosen roles, and where it stands. -/
def named? (chosen : SymbolRole → Bool) : Report → Option (String × Location)
  | .event (.symbol role name location) _ => if chosen role then some (name, location) else none
  | _ => none

def flow? : Report → Option FlowEvent
  | .event (.flow jump) _ => some jump
  | _ => none

def sceneNames : Report → List String
  | .event (.scenes names _) _ => names
  | _ => []

/-- Where a command of the given name starts, if the report is that of one. -/
def start? (command : String) : Report → Option Position
  | .event (.command _ name _ _ location) _ =>
    if name = command then some location.range.start else none
  | _ => none

def error? : Report → Option Diagnostic
  | .error diagnostic => some diagnostic
  | _ => none

theorem error?_eq_some_iff {report : Report} {diagnostic : Diagnostic} :
    report.error? = some diagnostic ↔ report = .error diagnostic := by
  cases report <;> simp [error?]

end Report

/-- The names that reports tell of in one of the chosen roles, and where they stand. -/
def names (chosen : SymbolRole → Bool) (reports : List Report) : List (String × Location) :=
  reports.filterMap (·.named? chosen)

theorem mem_names_iff {chosen : SymbolRole → Bool} {reports : List Report}
    {entry : String × Location} :
    entry ∈ names chosen reports ↔ ∃ report ∈ reports, report.named? chosen = some entry :=
  List.mem_filterMap

@[simp] theorem names_nil (chosen : SymbolRole → Bool) : names chosen [] = [] := rfl

@[simp] theorem names_append (chosen : SymbolRole → Bool) (before after : List Report) :
    names chosen (before ++ after) = names chosen before ++ names chosen after :=
  List.filterMap_append

@[simp] theorem names_singleton (chosen : SymbolRole → Bool) (report : Report) :
    names chosen [report] = (report.named? chosen).toList := by
  rw [names, List.filterMap_cons]
  cases report.named? chosen <;> rfl

namespace Summary

variable {isStartup : Bool}

/-- A summary with all that some reports say entered field by field. -/
def enter (isStartup : Bool) (summary : Summary) (reports : List Report) : Summary where
  globalVariables := summary.globalVariables.insertAll
    (names (fun role => role = .globalVariable && isStartup) reports)
  localVariables := summary.localVariables.insertAll (names (·.isLocal isStartup) reports)
  labels := summary.labels.insertAll (names (· = .label) reports)
  references := summary.references.pushAll (names (· = .reference) reports)
  flowEvents := summary.flowEvents ++ reports.filterMap Report.flow?
  scenes := summary.scenes ++ reports.flatMap Report.sceneNames
  achievements := summary.achievements.insertAll (names (· = .achievement) reports)
  achievementReferences := summary.achievementReferences.pushAll (names (· = .achieve) reports)
  achievementScopes :=
    summary.achievementScopes ++ reports.filterMap (Report.start? "check_achievements")
  paramScopes := summary.paramScopes ++ reports.filterMap (Report.start? "params")
  errors := summary.errors ++ reports.filterMap Report.error?

@[simp] theorem enter_nil (summary : Summary) : summary.enter isStartup [] = summary := by
  simp [enter]

/-- Reports are entered one after another. -/
theorem enter_append (summary : Summary) (before after : List Report) :
    summary.enter isStartup (before ++ after) =
      (summary.enter isStartup before).enter isStartup after := by
  simp [enter]

/-- A command opens a scope or changes nothing. -/
theorem addCommand_eq (summary : Summary) (name : String) (location : Location) :
    summary.addCommand name location = { summary with
      achievementScopes := summary.achievementScopes ++
        if name = "check_achievements" then [location.range.start] else []
      paramScopes := summary.paramScopes ++ if name = "params" then [location.range.start] else [] } := by
  unfold addCommand
  split
  · simp
  · simp
  · rename_i noAchievements noParams
    rw [if_neg noAchievements, if_neg noParams, List.append_nil, List.append_nil]

/-- To take in a report is to enter what it says. -/
theorem add_eq_enter (summary : Summary) (report : Report) :
    summary.add isStartup report = summary.enter isStartup [report] := by
  rcases report with ⟨event, context⟩ | diagnostic
  · cases event with
    | command padding name spacing line location =>
        by_cases achievements : name = "check_achievements" <;>
          by_cases params : name = "params" <;>
          simp [add, addCommand_eq, enter, achievements, params, Report.named?, Report.flow?,
            Report.sceneNames, Report.start?, Report.error?]
    | symbol role name location =>
        cases role <;> cases isStartup <;>
          simp [add, addSymbol, enter, SymbolRole.isLocal, Report.named?, Report.flow?,
            Report.sceneNames, Report.start?, Report.error?]
    | _ =>
        simp [add, enter, Report.named?, Report.flow?, Report.sceneNames, Report.start?,
          Report.error?]
  · simp [add, enter, Report.named?, Report.flow?, Report.sceneNames, Report.start?, Report.error?]

theorem ofReports_eq (isStartup : Bool) (reports : List Report) :
    ofReports isStartup reports = enter isStartup {} reports := by
  suffices ∀ summary, reports.foldl (add isStartup) summary = enter isStartup summary reports from
    this {}
  induction reports with
  | nil => simp
  | cons report rest ih =>
      intro summary
      rw [List.foldl_cons, ih, add_eq_enter, ← enter_append]
      rfl

/-- The index of a summary takes over what it holds of the document and runs every scope to the end. -/
theorem documentIndex_eq_ok {summary : Summary} {document : Document} {index : DocumentIndex}
    (made : summary.documentIndex document = .ok index) :
    ∃ scopes : VariableScopes,
      (summary.achievementScopes.mapM fun start => Range.between start document.endPosition) =
        .ok scopes.achievement ∧
      (summary.paramScopes.mapM fun start => Range.between start document.endPosition) =
        .ok scopes.param ∧
      index = {
        localVariables := summary.localVariables
        labels := summary.labels
        references := summary.references
        flowEvents := summary.flowEvents
        achievementReferences := summary.achievementReferences
        scopes
        errors := summary.errors } := by
  obtain ⟨achievement, achievementMade, rest⟩ := Outcome.bind_eq_ok made
  obtain ⟨param, paramMade, same⟩ := Outcome.bind_eq_ok rest
  exact ⟨⟨achievement, param⟩, achievementMade, paramMade, (Except.ok.inj same).symm⟩

end Summary

end ChoiceScript
