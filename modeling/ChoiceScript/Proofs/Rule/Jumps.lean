import ChoiceScript.Proofs.Rule.Kinds

/-! # What is wrong with a jump

A jump is told at most one error. Where its scene is not listed, that is the error; else it is that
its label is not in the file that the jump leads to, if the label is given and not computed.
-/

namespace ChoiceScript.Rule

/-- The error that a file has no such label, where a jump names it. -/
def labelError (label file : String) (range : Range) : Diagnostic where
  code := Notice.labelNotFound.code
  message := "Label \"" ++ label ++ "\" wasn't found in " ++ file
  range
  severity := Notice.labelNotFound.severity
  hint := Notice.labelNotFound.hint
  category := some Notice.labelNotFound.category

/-- The error that no such scene is listed, where a jump names it. -/
def sceneError (scene : String) (range : Range) : Diagnostic where
  code := Notice.sceneNotFound.code
  message := "Scene \"" ++ scene ++ "\" wasn't found in startup.txt"
  range
  severity := Notice.sceneNotFound.severity
  hint := Notice.sceneNotFound.hint
  category := some Notice.sceneNotFound.category

/-- A target is looked for if it is given and not computed. -/
structure IsPlain (target : String) : Prop where
  given : target ≠ ""
  plain : isComputed target = false

instance (target : String) : Decidable (IsPlain target) :=
  decidable_of_iff (target ≠ "" ∧ isComputed target = false) ⟨fun ⟨a, b⟩ => ⟨a, b⟩, fun ⟨a, b⟩ => ⟨a, b⟩⟩

theorem isComputed_of_not_isPlain {target : String} (other : ¬ IsPlain target) (given : target ≠ "") :
    isComputed target = true := by
  cases computed : isComputed target with
  | true => rfl
  | false => exact absurd ⟨given, computed⟩ other

variable {inspection : Inspection} {event : FlowEvent} {location : Location}

theorem checkedLabel_plain {file uri : String} (place : event.labelLocation = some location)
    (plain : IsPlain event.label) (named : Uri.fileName uri = .ok file) :
    checkedLabel inspection event (.ok (some uri)) =
      .ok (if (inspection.index.document uri).labels.contains event.label then []
        else [labelError event.label file location.range]) := by
  unfold checkedLabel
  simp only [place, plain.given, plain.plain, decide_false, Bool.or_self, Bool.false_eq_true, if_false,
    Outcome.bind_ok, labelDiagnostics, named]
  split <;> rfl

theorem checkedLabel_other {file? : Except Fault (Option String)} (other : ¬ IsPlain event.label) :
    checkedLabel inspection event file? = .ok [] := by
  unfold checkedLabel
  split
  · rfl
  · by_cases given : event.label = ""
    · simp [given]
    · simp [isComputed_of_not_isPlain other given]

/-- A jump that names no scene is judged by its label. -/
theorem jumpDiagnostics_inFile (noScene : event.sceneLocation = none) :
    jumpDiagnostics inspection event =
      checkedLabel inspection event (.ok (some inspection.document.uri)) := by
  simp only [jumpDiagnostics, noScene]

/-- A jump to a scene that is not looked for is not judged, for without a scene it has no label. -/
theorem jumpDiagnostics_other (place : event.sceneLocation = some location)
    (other : ¬ IsPlain event.scene) (sceneFirst : event.scene = "" → event.label = "") :
    jumpDiagnostics inspection event = .ok [] := by
  unfold jumpDiagnostics
  simp only [place]
  split
  · rename_i noScene
    exact checkedLabel_other fun plain => plain.given (sceneFirst noScene)
  · rename_i given
    rw [if_pos (isComputed_of_not_isPlain other given)]
    rfl

theorem jumpDiagnostics_toScene (place : event.sceneLocation = some location)
    (plain : IsPlain event.scene) :
    jumpDiagnostics inspection event =
      if event.scene ∈ inspection.index.scenes then
        checkedLabel inspection event (inspection.index.sceneUri? event.scene)
      else .ok [sceneError event.scene location.range] := by
  unfold jumpDiagnostics
  simp only [place, plain.given, plain.plain, if_false, Bool.false_eq_true]
  by_cases listed : event.scene ∈ inspection.index.scenes
  · simp [listed]
  · simp only [List.contains_eq_mem, listed, decide_false, Bool.not_false, if_true, if_false]
    rfl

end ChoiceScript.Rule
