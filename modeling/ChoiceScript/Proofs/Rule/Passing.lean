import ChoiceScript.Proofs.Diagnostic.Rendering
import ChoiceScript.Proofs.Text.Pieces
import ChoiceScript.Proofs.Uri.Parts
import ChoiceScript.Workspace

/-! # Rules never fail

The rules that apply unless others are chosen find diagnostics wherever the addresses that they read
can be read: that of the document, and those of the scenes that its jumps lead to.
-/

namespace ChoiceScript

namespace Uri

/-- An address can be read. -/
def Readable (address : String) : Prop := ∃ uri, parse address.toList = .ok uri

theorem Readable.fileName {address : String} (readable : Readable address) :
    ∃ name, fileName address = .ok name := by
  obtain ⟨uri, read⟩ := readable
  simp only [Uri.fileName, read, Outcome.bind_ok, Outcome.pure_eq]
  exact ⟨_, rfl⟩

theorem Readable.isStartup {address : String} (readable : Readable address) (startupFile : String) :
    ∃ told, Uri.isStartup startupFile address = .ok told := by
  obtain ⟨name, found⟩ := readable.fileName
  simp only [Uri.isStartup, found, Outcome.bind_ok, Outcome.pure_eq]
  exact ⟨_, rfl⟩

theorem readable_of_isStartup {startupFile address : String} {told : Bool}
    (passed : Uri.isStartup startupFile address = .ok told) : Readable address := by
  obtain ⟨name, found, -⟩ := Outcome.bind_eq_ok passed
  obtain ⟨uri, read, -⟩ := Outcome.bind_eq_ok found
  exact ⟨uri, read⟩

end Uri

namespace Rule

variable {inspection : Inspection}

theorem labelDiagnostics_ok {label uri : String} (location : Location)
    (readable : Uri.Readable uri) :
    ∃ found, labelDiagnostics inspection label uri location = .ok found := by
  unfold labelDiagnostics
  split
  · exact ⟨[], rfl⟩
  · obtain ⟨file, named⟩ := readable.fileName
    have fit : Notice.labelNotFound.message.fits ["label", "filename"] = true := by decide
    obtain ⟨diagnostic, made, -⟩ : ∃ diagnostic, Notice.labelNotFound.onRange location.range
        [("label", label), ("filename", file)] = .ok diagnostic ∧ _ :=
      Notice.onRange_ok location.range fit
    simp only [named, made, Outcome.bind_ok, Outcome.pure_eq]
    exact ⟨_, rfl⟩

theorem checkedLabel_ok {event : FlowEvent} {file? : Option String}
    (readable : ∀ file ∈ file?, Uri.Readable file) :
    ∃ found, checkedLabel inspection event (.ok file?) = .ok found := by
  unfold checkedLabel
  split
  · exact ⟨[], rfl⟩
  · split
    · exact ⟨[], rfl⟩
    · cases file? with
      | none => exact ⟨[], rfl⟩
      | some uri => exact labelDiagnostics_ok _ (readable uri rfl)

/-- The file of a scene can be found, and its address can be read. -/
def Reachable (index : ProjectIndex) (scene : String) : Prop :=
  ∃ file?, index.sceneUri? scene = .ok file? ∧ ∀ file ∈ file?, Uri.Readable file

theorem jumpDiagnostics_ok {event : FlowEvent} (own : Uri.Readable inspection.document.uri)
    (scene : isComputed event.scene = false → Reachable inspection.index event.scene) :
    ∃ found, jumpDiagnostics inspection event = .ok found := by
  have inOwn : ∃ found,
      checkedLabel inspection event (.ok (some inspection.document.uri)) = .ok found :=
    checkedLabel_ok fun file same => Option.some.inj same ▸ own
  unfold jumpDiagnostics
  split
  · rename_i location _
    split
    · exact inOwn
    split
    · exact ⟨[], rfl⟩
    rename_i named computed
    split
    · have fit : Notice.sceneNotFound.message.fits ["scene"] = true := by decide
      obtain ⟨diagnostic, made, -⟩ : ∃ diagnostic, Notice.sceneNotFound.onRange location.range
          [("scene", event.scene)] = .ok diagnostic ∧ _ :=
        Notice.onRange_ok location.range fit
      simp only [made, Outcome.bind_ok, Outcome.pure_eq]
      exact ⟨_, rfl⟩
    · obtain ⟨file?, found, readable⟩ := scene (by simpa using computed)
      rw [found]
      exact checkedLabel_ok readable
  · exact inOwn

theorem jumps_ok (own : Uri.Readable inspection.document.uri)
    (scenes : ∀ event ∈ inspection.documentIndex.flowEvents,
      isComputed event.scene = false → Reachable inspection.index event.scene) :
    ∃ found, jumps.run inspection = .ok found := by
  obtain ⟨found, passed⟩ := Outcome.mapM_passes fun event member =>
    jumpDiagnostics_ok own (scenes event member)
  simp only [jumps, passed, Outcome.bind_ok, Outcome.pure_eq]
  exact ⟨_, rfl⟩

theorem variableDiagnostics_ok (place name : String) (locations : List Location) :
    ∃ found, variableDiagnostics inspection place name locations = .ok found := by
  have onRanges : ∀ (notice : Notice) (fields : Fields) (places : List Location),
      notice.message.fits (fields.map (·.1)) = true →
        ∃ found, places.mapM (fun location => notice.onRange location.range fields) = .ok found := by
    intro notice fields places fit
    exact Outcome.mapM_passes fun location _ =>
      (Notice.onRange_ok location.range fit).imp fun _ made => made.1
  unfold variableDiagnostics
  split
  · have fit : Notice.usedBeforeCreation.message.fits ["variable"] = true := by decide
    exact onRanges _ _ _ fit
  · split
    · exact ⟨[], rfl⟩
    · have fit : Notice.undefinedVariable.message.fits ["variable", "where"] = true := by decide
      exact onRanges _ _ _ fit

theorem variableUse_ok (own : Uri.Readable inspection.document.uri) :
    ∃ found, variableUse.run inspection = .ok found := by
  apply Outcome.bind_passes (own.isStartup inspection.index.startupFile)
  intro isStartup
  apply Outcome.bind_passes
  · exact Outcome.mapM_passes fun entry _ => variableDiagnostics_ok _ entry.1 entry.2
  · exact fun lists => ⟨lists.flatten, rfl⟩

theorem placement_ok : ∃ found, placement.run inspection = .ok found := by
  have fit : Notice.commandNotOnOwnLine.message.fits ["command"] = true := by decide
  apply Outcome.mapM_passes
  intro command _
  have le : (command.star : Int) ≤ command.stop := by
    simp only [InnerCommand.stop]
    omega
  exact Notice.exists_between le fit

theorem punctuation_ok : ∃ found, punctuation.run inspection = .ok found := by
  have fit : Notice.styleGuide.message.fits ["description"] = true := by decide
  apply Outcome.mapM_passes
  intro mark _
  have le : (mark.1 : Int) ≤ mark.1 + mark.2.length := by omega
  exact Notice.exists_between le fit

/-- The rules that do not look at other files need the address of the document only. -/
theorem others_ok (own : Uri.Readable inspection.document.uri) :
    ∃ uses placed marks, variableUse.run inspection = .ok uses ∧
      placement.run inspection = .ok placed ∧ punctuation.run inspection = .ok marks := by
  obtain ⟨uses, usesRun⟩ := variableUse_ok own
  obtain ⟨placed, placedRun⟩ : ∃ found, placement.run inspection = .ok found := placement_ok
  obtain ⟨marks, marksRun⟩ : ∃ found, punctuation.run inspection = .ok found := punctuation_ok
  exact ⟨uses, placed, marks, usesRun, placedRun, marksRun⟩

end Rule

namespace ProjectIndex

/-- A check that all rules pass gives what they find and the errors of the document in order. -/
theorem check_eq {index : ProjectIndex} {document : Document} {jumps uses placed marks : List Diagnostic}
    (jumpsRun : Rule.jumps.run (.of document index) = .ok jumps)
    (usesRun : Rule.variableUse.run (.of document index) = .ok uses)
    (placedRun : Rule.placement.run (.of document index) = .ok placed)
    (marksRun : Rule.punctuation.run (.of document index) = .ok marks) :
    index.check document Rule.defaults = .ok
      (Diagnostic.sort ((index.document document.uri).errors ++ [jumps, uses, placed, marks].flatten)) := by
  have valid : Rule.defaults.forM Rule.validate = .ok () := rfl
  rw [check, valid]
  simp only [Outcome.bind_ok, Rule.defaults, List.mapM_cons, List.mapM_nil, jumpsRun,
    usesRun, placedRun, marksRun, Outcome.pure_eq]

/-- What a check gives was found by the rules or in reading the document. -/
theorem check_eq_ok {index : ProjectIndex} {document : Document} {diagnostics : List Diagnostic}
    (passed : index.check document Rule.defaults = .ok diagnostics) :
    ∃ jumps uses placed marks,
      Rule.jumps.run (.of document index) = .ok jumps ∧
      Rule.variableUse.run (.of document index) = .ok uses ∧
      Rule.placement.run (.of document index) = .ok placed ∧
      Rule.punctuation.run (.of document index) = .ok marks ∧
      diagnostics = Diagnostic.sort
        ((index.document document.uri).errors ++ [jumps, uses, placed, marks].flatten) := by
  obtain ⟨-, -, rest⟩ := Outcome.bind_eq_ok passed
  obtain ⟨found, ran, same⟩ := Outcome.bind_eq_ok rest
  obtain ⟨jumps, others, jumpsRun, othersRun, rfl⟩ := Outcome.mapM_cons_eq_ok ran
  obtain ⟨uses, style, usesRun, styleRun, rfl⟩ := Outcome.mapM_cons_eq_ok othersRun
  obtain ⟨placed, last, placedRun, lastRun, rfl⟩ := Outcome.mapM_cons_eq_ok styleRun
  obtain ⟨marks, none, marksRun, noneRun, rfl⟩ := Outcome.mapM_cons_eq_ok lastRun
  obtain rfl := Except.ok.inj noneRun
  exact ⟨jumps, uses, placed, marks, jumpsRun, usesRun, placedRun, marksRun,
    (Except.ok.inj same).symm⟩

end ProjectIndex

end ChoiceScript
