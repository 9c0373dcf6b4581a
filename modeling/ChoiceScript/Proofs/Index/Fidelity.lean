import ChoiceScript.Proofs.Index.Entries
import ChoiceScript.Proofs.Index.Reading

/-! # The index sums up what a document reports

To take a document into the index of a project is to read it and to enter its reports. The place of a
name is that of its first creation; references, jumps and errors are all kept, in the order in which
they are reported. Nothing else changes: no other document, and no table of the startup file unless
the document is the startup file.
-/

namespace ChoiceScript

/-- An index holds of a document what its reports say, and no more. -/
structure DocumentIndex.SumsUp (index : DocumentIndex) (document : Document) (isStartup : Bool)
    (reports : List Report) : Prop where
  localVariables : index.localVariables.KeepsFirst (names (·.isLocal isStartup) reports)
  labels : index.labels.KeepsFirst (names (· = .label) reports)
  references : index.references.KeepsAll (names (· = .reference) reports)
  achievementReferences : index.achievementReferences.KeepsAll (names (· = .achieve) reports)
  flowEvents : index.flowEvents = reports.filterMap Report.flow?
  errors : index.errors = reports.filterMap Report.error?
  achievementScopes :
    ((reports.filterMap (Report.start? "check_achievements")).mapM fun start =>
      Range.between start document.endPosition) = .ok index.scopes.achievement
  paramScopes :
    ((reports.filterMap (Report.start? "params")).mapM fun start =>
      Range.between start document.endPosition) = .ok index.scopes.param

/-- The tables of the startup file hold what its reports say, and no more. -/
structure ProjectIndex.Declares (project : ProjectIndex) (uri : String) (reports : List Report) :
    Prop where
  startupUri : project.startupUri = some uri
  globalVariables : project.globalVariables.KeepsFirst (names (· = .globalVariable) reports)
  scenes : project.scenes = reports.flatMap Report.sceneNames
  achievements : project.achievements.KeepsFirst (names (· = .achievement) reports)

namespace Summary

theorem documentIndex_sumsUp {isStartup : Bool} {reports : List Report} {document : Document}
    {index : DocumentIndex} (made : (ofReports isStartup reports).documentIndex document = .ok index) :
    index.SumsUp document isStartup reports := by
  obtain ⟨scopes, achievement, param, rfl⟩ := documentIndex_eq_ok made
  rw [ofReports_eq] at *
  exact {
    localVariables := OrderedMap.keepsFirst_empty.insertAll _
    labels := OrderedMap.keepsFirst_empty.insertAll _
    references := OrderedMap.keepsAll_empty.pushAll _
    achievementReferences := OrderedMap.keepsAll_empty.pushAll _
    flowEvents := rfl
    errors := rfl
    achievementScopes := achievement
    paramScopes := param }

end Summary

theorem Document.Reads.sumsUp {document : Document} {startupFile : String} {isStartup : Bool}
    {summary : Summary} {index : DocumentIndex}
    (reads : document.Reads startupFile isStartup summary index) :
    index.SumsUp document isStartup (Source.stream ⟨document, startupFile⟩) := by
  have made := reads.indexed
  rw [reads.summary_eq] at made
  exact Summary.documentIndex_sumsUp made

namespace ProjectIndex

theorem afterReading_declares (index : ProjectIndex) (uri : String) (reports : List Report)
    (document : DocumentIndex) :
    (index.afterReading uri true (.ofReports true reports) document).Declares uri reports := by
  simp only [afterReading, if_true, Summary.ofReports_eq, Summary.enter, Bool.and_true]
  exact {
    startupUri := rfl
    globalVariables := OrderedMap.keepsFirst_empty.insertAll _
    scenes := rfl
    achievements := OrderedMap.keepsFirst_empty.insertAll _ }

/-- Taking a document into the index of a project sums up its reports, and leaves all else as it was.
It fails only if the document cannot be read. -/
theorem update_sums_up (index : ProjectIndex) (document : Document) (isStartup : Bool)
    (startupFile : String) :
    match Source.reports { document, startupFile } with
    | .error fault => index.update document isStartup startupFile = .error fault
    | .ok reports => ∃ documentIndex project,
      index.update document isStartup startupFile = .ok (documentIndex, project) ∧
      documentIndex.SumsUp document isStartup reports ∧
      project.documents.get? document.uri = some documentIndex ∧
      (∀ uri ≠ document.uri, project.documents.get? uri = index.documents.get? uri) ∧
      project.startupFile = index.startupFile ∧
      if isStartup then project.Declares document.uri reports
      else project = { index with documents := project.documents } := by
  cases read : Source.reports { document, startupFile } with
  | error fault => simp only [update, read, Outcome.bind_error]
  | ok reports =>
      obtain ⟨documentIndex, made, taken⟩ := index.update_eq_ok isStartup read
      refine ⟨documentIndex, _, taken, Summary.documentIndex_sumsUp made, ?_, ?_, ?_, ?_⟩
      · simp [OrderedMap.get?_insert]
      · intro uri other
        simp [OrderedMap.get?_insert, other]
      · simp
      · cases isStartup with
        | true => exact afterReading_declares index document.uri reports documentIndex
        | false => rfl

end ProjectIndex

end ChoiceScript
