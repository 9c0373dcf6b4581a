import ChoiceScript.Proofs.Index.Entries
import ChoiceScript.Proofs.Index.Reading

/-! # What an index holds

A summary of reports holds what one of them says and nothing else: the names that are created, where
scopes open, and the errors. So the index of a document that is read holds what its reports say.
-/

namespace ChoiceScript

namespace Report

/-- Does a report create a variable of the given name that belongs to its file? -/
def createsLocal (isStartup : Bool) (name : String) : Report → Bool
  | .event (.symbol .localVariable created _) _ => name = created
  | .event (.symbol .globalVariable created _) _ => !isStartup && name = created
  | _ => false

def createsAchievement (codename : String) : Report → Bool
  | .event (.symbol .achievement created _) _ => codename = created
  | _ => false

/-- Is a report that of a command of the given name that starts at a position? -/
def opensAt (command : String) (start : Position) : Report → Bool
  | .event (.command _ name _ _ location) _ => name = command && start = location.range.start
  | _ => false

/-- Is a report that of a command of the given name that starts at or before a position? -/
def opensBy (command : String) (place : Position) : Report → Bool
  | .event (.command _ name _ _ location) _ => name = command && location.range.start ≤ place
  | _ => false

variable {isStartup : Bool} {report : Report}

theorem createsLocal_iff {name : String} : report.createsLocal isStartup name = true ↔
    ∃ location, report.named? (·.isLocal isStartup) = some (name, location) := by
  rcases report with ⟨event, context⟩ | diagnostic
  · cases event with
    | symbol role created location =>
        cases role <;> cases isStartup <;> simp [createsLocal, named?, SymbolRole.isLocal, eq_comm]
    | _ => simp [createsLocal, named?]
  · simp [createsLocal, named?]

theorem createsAchievement_iff {codename : String} : report.createsAchievement codename = true ↔
    ∃ location, report.named? (· = .achievement) = some (codename, location) := by
  rcases report with ⟨event, context⟩ | diagnostic
  · cases event with
    | symbol role created location => cases role <;> simp [createsAchievement, named?, eq_comm]
    | _ => simp [createsAchievement, named?]
  · simp [createsAchievement, named?]

theorem opensAt_iff {command : String} {start : Position} :
    report.opensAt command start = true ↔ report.start? command = some start := by
  rcases report with ⟨event, context⟩ | diagnostic
  · cases event with
    | command padding name spacing line location =>
        by_cases same : name = command <;> simp [opensAt, start?, same, eq_comm]
    | _ => simp [opensAt, start?]
  · simp [opensAt, start?]

theorem opensBy_iff {command : String} {place : Position} :
    report.opensBy command place = true ↔
      ∃ start, report.opensAt command start = true ∧ start ≤ place := by
  unfold opensBy opensAt
  split
  · simp [and_assoc]
  · simp

end Report

/-- Some command of the given name starts at or before a position. -/
def Opened (reports : List Report) (command : String) (place : Position) : Prop :=
  ∃ report ∈ reports, report.opensBy command place

instance (reports : List Report) (command : String) (place : Position) :
    Decidable (Opened reports command place) :=
  inferInstanceAs (Decidable (∃ _ ∈ reports, _))

namespace Summary

variable {isStartup : Bool} {reports : List Report}

/-- The names that are created are those that the reports create. -/
theorem mem_keys_insertAll_iff {chosen : SymbolRole → Bool} {creates : Report → Bool} {name : String}
    (created : ∀ report : Report, creates report = true ↔
      ∃ location, report.named? chosen = some (name, location)) :
    name ∈ (OrderedMap.insertAll ∅ (names chosen reports)).keys ↔
      ∃ report ∈ reports, creates report := by
  rw [(OrderedMap.keepsFirst_empty.insertAll _).mem_keys]
  simp only [List.nil_append, mem_names_iff, created]
  exact ⟨fun ⟨location, report, said, named⟩ => ⟨report, said, location, named⟩,
    fun ⟨report, said, location, named⟩ => ⟨location, report, said, named⟩⟩

theorem mem_localVariables_ofReports {name : String} :
    name ∈ (ofReports isStartup reports).localVariables.keys ↔
      ∃ report ∈ reports, report.createsLocal isStartup name := by
  rw [ofReports_eq]
  exact mem_keys_insertAll_iff fun _ => Report.createsLocal_iff

theorem mem_achievements_ofReports {codename : String} :
    codename ∈ (ofReports isStartup reports).achievements.keys ↔
      ∃ report ∈ reports, report.createsAchievement codename := by
  rw [ofReports_eq]
  exact mem_keys_insertAll_iff fun _ => Report.createsAchievement_iff

theorem mem_achievementScopes_ofReports {start : Position} :
    start ∈ (ofReports isStartup reports).achievementScopes ↔
      ∃ report ∈ reports, report.opensAt "check_achievements" start := by
  simp [ofReports_eq, enter, Report.opensAt_iff]

theorem mem_paramScopes_ofReports {start : Position} :
    start ∈ (ofReports isStartup reports).paramScopes ↔
      ∃ report ∈ reports, report.opensAt "params" start := by
  simp [ofReports_eq, enter, Report.opensAt_iff]

theorem mem_errors_ofReports {diagnostic : Diagnostic} :
    diagnostic ∈ (ofReports isStartup reports).errors ↔ .error diagnostic ∈ reports := by
  simp [ofReports_eq, enter, Report.error?_eq_some_iff]

end Summary

/-- A range of a document is in a scope that runs to the end just if one starts at or before it. -/
theorem Document.any_contains_iff {document : Document} {starts : List Position} {scopes : List Range}
    {range : Range}
    (made : (starts.mapM fun start => Range.between start document.endPosition) = .ok scopes)
    (inside : range.stop ≤ document.endPosition) :
    scopes.any (·.contains range) = true ↔ ∃ start ∈ starts, start ≤ range.start := by
  have opened : ∀ {start scope}, Range.between start document.endPosition = .ok scope →
      scope.start = start ∧ scope.stop = document.endPosition := by
    intro start scope between
    unfold Range.between at between
    split at between
    · obtain rfl := Except.ok.inj between
      exact ⟨rfl, rfl⟩
    · cases between
  rw [List.any_eq_true]
  constructor
  · rintro ⟨scope, member, contains⟩
    obtain ⟨start, present, between⟩ := (Outcome.mem_mapM made).1 member
    simp only [Range.contains, Bool.and_eq_true, decide_eq_true_eq] at contains
    exact ⟨start, present, (opened between).1 ▸ contains.1⟩
  · rintro ⟨start, present, before⟩
    have ordered := Position.le_trans (Position.le_trans before range.start_le_stop) inside
    refine ⟨⟨start, document.endPosition, ordered⟩, ?_, by simp [Range.contains, before, inside]⟩
    exact (Outcome.mem_mapM made).2 ⟨start, present, by simp [Range.between, ordered]⟩

namespace Document.Reads

variable {document : Document} {startupFile : String} {isStartup : Bool} {summary : Summary}
  {index : DocumentIndex}

theorem mem_localVariables (reads : document.Reads startupFile isStartup summary index)
    {name : String} : name ∈ index.localVariables.keys ↔
      ∃ report ∈ Source.stream ⟨document, startupFile⟩, report.createsLocal isStartup name := by
  obtain ⟨scopes, -, -, rfl⟩ := Summary.documentIndex_eq_ok reads.indexed
  rw [reads.summary_eq]
  exact Summary.mem_localVariables_ofReports

theorem mem_errors (reads : document.Reads startupFile isStartup summary index)
    {diagnostic : Diagnostic} :
    diagnostic ∈ index.errors ↔ .error diagnostic ∈ Source.stream ⟨document, startupFile⟩ := by
  obtain ⟨scopes, -, -, rfl⟩ := Summary.documentIndex_eq_ok reads.indexed
  rw [reads.summary_eq]
  exact Summary.mem_errors_ofReports

/-- A range is in the scope of achievements or of parameters if their command starts at or before it. -/
theorem any_scope_iff (reads : document.Reads startupFile isStartup summary index) {range : Range}
    (inside : range.stop ≤ document.endPosition) :
    (index.scopes.achievement.any (·.contains range) = true ↔
      Opened (Source.stream ⟨document, startupFile⟩) "check_achievements" range.start) ∧
    (index.scopes.param.any (·.contains range) = true ↔
      Opened (Source.stream ⟨document, startupFile⟩) "params" range.start) := by
  have exchange : ∀ command : String,
      (∃ start, (∃ report ∈ Source.stream ⟨document, startupFile⟩, report.opensAt command start) ∧
        start ≤ range.start) ↔ Opened (Source.stream ⟨document, startupFile⟩) command range.start := by
    intro command
    simp only [Opened, Report.opensBy_iff]
    constructor
    · rintro ⟨start, ⟨report, said, opens⟩, before⟩
      exact ⟨report, said, start, opens, before⟩
    · rintro ⟨report, said, start, opens, before⟩
      exact ⟨start, ⟨report, said, opens⟩, before⟩
  obtain ⟨scopes, achievement, param, rfl⟩ := Summary.documentIndex_eq_ok reads.indexed
  rw [reads.summary_eq] at achievement param
  rw [any_contains_iff achievement inside, any_contains_iff param inside]
  simp only [Summary.mem_achievementScopes_ofReports, Summary.mem_paramScopes_ofReports]
  exact ⟨exchange _, exchange _⟩

end Document.Reads

end ChoiceScript
