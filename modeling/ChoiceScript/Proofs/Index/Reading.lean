import ChoiceScript.Index.Project
import ChoiceScript.Proofs.Index.Summary
import ChoiceScript.Proofs.Parser.Document

/-! # What a document says by itself

A reading of a document has its summary and its index, made from its address and text alone. To
index a document is to read it and to put the reading in the place of what was known of it; a reading
of the startup file takes over the tables of the project besides.
-/

namespace ChoiceScript

namespace Source

/-- All that is reported in reading a document, up to its end or to a fault. -/
def stream (source : Source) : List Report := (Parser.whole.run source).2.reports

theorem reports_eq_ok {source : Source} {reports : List Report} (read : source.reports = .ok reports) :
    reports = source.stream := by
  unfold Source.reports at read
  split at read
  · rename_i progress ran
    rw [stream, ran]
    exact (Except.ok.inj read).symm
  · cases read

theorem passed_of_reports {source : Source} {reports : List Report}
    (read : source.reports = .ok reports) : (Parser.whole.run source).1 = .ok () := by
  unfold Source.reports at read
  split at read
  · rename_i ran
    rw [ran]
  · cases read

theorem reports_truthful {source : Source} {reports : List Report}
    (read : source.reports = .ok reports) :
    ∀ report ∈ reports, report.Truthful source.document := by
  obtain ⟨new, reported, truthful, -⟩ := Parser.truthful_whole source {}
  rw [reports_eq_ok read]
  have same : source.stream = new := by simpa [stream, Parser.run] using reported
  exact same ▸ truthful

end Source

/-- What comes of reading a document in a project with the given name for its startup file. -/
structure Document.Reads (document : Document) (startupFile : String) (isStartup : Bool)
    (summary : Summary) (index : DocumentIndex) : Prop where
  startup : Uri.isStartup startupFile document.uri = .ok isStartup
  summed : ∃ reports, Source.reports { document, startupFile } = .ok reports ∧
    summary = Summary.ofReports isStartup reports
  indexed : summary.documentIndex document = .ok index

namespace Document.Reads

variable {document : Document} {startupFile : String} {isStartup : Bool} {summary : Summary}
  {index : DocumentIndex}

theorem summary_eq (reads : document.Reads startupFile isStartup summary index) :
    summary = Summary.ofReports isStartup (Source.stream ⟨document, startupFile⟩) := by
  obtain ⟨reports, read, rfl⟩ := reads.summed
  rw [Source.reports_eq_ok read]

theorem summary_faithful (reads : document.Reads startupFile isStartup summary index) :
    summary.Faithful document := by
  obtain ⟨reports, read, rfl⟩ := reads.summed
  exact Summary.ofReports_faithful (Source.reports_truthful read)

theorem faithful (reads : document.Reads startupFile isStartup summary index) :
    index.Faithful document := by
  obtain ⟨made, indexed, faithful⟩ := reads.summary_faithful.documentIndex
  rw [reads.indexed, Except.ok.injEq] at indexed
  exact indexed ▸ faithful

end Document.Reads

namespace ProjectIndex

/-- The index of a project after a reading. -/
def afterReading (index : ProjectIndex) (uri : String) (isStartup : Bool) (summary : Summary)
    (document : DocumentIndex) : ProjectIndex :=
  if isStartup then
    { (index.replace uri document).setGlobalVariables uri summary.globalVariables with
      scenes := summary.scenes
      achievements := summary.achievements }
  else index.replace uri document

/-- A document that is read can be taken into the index of a project. -/
theorem update_eq_ok (index : ProjectIndex) {document : Document} (isStartup : Bool)
    {startupFile : String} {reports : List Report}
    (read : Source.reports { document, startupFile } = .ok reports) :
    ∃ documentIndex,
      (Summary.ofReports isStartup reports).documentIndex document = .ok documentIndex ∧
      index.update document isStartup startupFile = .ok (documentIndex,
        index.afterReading document.uri isStartup (.ofReports isStartup reports) documentIndex) := by
  have faithful : (Summary.ofReports isStartup reports).Faithful document :=
    Summary.ofReports_faithful (Source.reports_truthful read)
  obtain ⟨documentIndex, made, -⟩ := faithful.documentIndex
  refine ⟨documentIndex, made, ?_⟩
  simp only [update, read, made, Outcome.bind_ok]
  cases isStartup <;> rfl

theorem indexDocument_eq_ok {index : ProjectIndex} {document : Document} {startupFile : String}
    {indexed : Indexed} (passed : index.indexDocument document startupFile = .ok indexed) :
    ∃ summary, document.Reads startupFile indexed.isStartup summary indexed.document ∧
      indexed.project =
        index.afterReading document.uri indexed.isStartup summary indexed.document := by
  obtain ⟨isStartup, startup, rest⟩ := Outcome.bind_eq_ok passed
  obtain ⟨⟨documentIndex, project⟩, updated, same⟩ := Outcome.bind_eq_ok rest
  obtain rfl : Indexed.mk isStartup documentIndex project = indexed := Except.ok.inj same
  obtain ⟨reports, read, -⟩ := Outcome.bind_eq_ok updated
  obtain ⟨other, made, taken⟩ := index.update_eq_ok isStartup read
  obtain ⟨rfl, rfl⟩ := Prod.mk.inj (Except.ok.inj (updated.symm.trans taken))
  exact ⟨_, ⟨startup, ⟨reports, read, rfl⟩, made⟩, rfl⟩

section AfterReading

variable (index : ProjectIndex) (uri : String) (isStartup : Bool) (summary : Summary)
  (document : DocumentIndex)

@[simp] theorem documents_afterReading :
    (index.afterReading uri isStartup summary document).documents =
      index.documents.insert uri document := by
  cases isStartup <;> rfl

@[simp] theorem startupFile_afterReading :
    (index.afterReading uri isStartup summary document).startupFile = index.startupFile := by
  cases isStartup <;> rfl

/-- Reading a document leaves the index of every other one alone. -/
theorem document_afterReading (other : String) :
    (index.afterReading uri isStartup summary document).document other =
      if other = uri then document else index.document other := by
  simp only [ProjectIndex.document, documents_afterReading, OrderedMap.get?_insert]
  split <;> rfl

end AfterReading

@[simp] theorem documents_remove (index : ProjectIndex) (uri : String) :
    (index.remove uri).documents = index.documents.erase uri := by
  unfold remove
  dsimp only
  split <;> rfl

@[simp] theorem startupFile_remove (index : ProjectIndex) (uri : String) :
    (index.remove uri).startupFile = index.startupFile := by
  unfold remove
  dsimp only
  split <;> rfl

theorem document_remove {index : ProjectIndex} {uri other : String} (apart : other ≠ uri) :
    (index.remove uri).document other = index.document other := by
  simp only [ProjectIndex.document, documents_remove, OrderedMap.get?_erase, apart, if_false]

end ProjectIndex

end ChoiceScript
