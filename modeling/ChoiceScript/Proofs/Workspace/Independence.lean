import ChoiceScript.Proofs.Workspace.Staleness

/-! # What the diagnostics of a document cannot tell apart

Two project indexes that agree for a document give it the same diagnostics. They may differ in all that
they hold of other documents but for the names of the labels that its jumps ask for: where these
labels stand, and which variables, uses, jumps, scopes and errors the other documents have, makes no
difference.
-/

namespace ChoiceScript.ProjectIndex

variable {index other : ProjectIndex} {document : Document} {uri : String}

/-- The files that the jumps of a document ask for labels have labels of the same names. -/
def SameLabels (index other : ProjectIndex) (uri : String) : Prop :=
  ∀ event ∈ (index.document uri).flowEvents, ∀ file, Rule.Asks index event file →
    ∀ label, label ∈ (other.document file).labels.keys ↔ label ∈ (index.document file).labels.keys

theorem SameLabels.stands (same : index.SameLabels other uri) :
    ∀ event ∈ (index.document uri).flowEvents, ∀ file, Rule.Asks index event file →
      Rule.labelStands other event file = Rule.labelStands index event file := by
  intro event member file asks
  rw [Rule.labelStands, Rule.labelStands, Bool.eq_iff_iff, OrderedMap.contains_iff,
    OrderedMap.contains_iff]
  exact same event member file asks event.label

theorem document_replace (index : ProjectIndex) (uri : String) (changed : DocumentIndex)
    (file : String) :
    (index.replace uri changed).document file = if file = uri then changed else index.document file := by
  simp only [ProjectIndex.document, replace, OrderedMap.get?_insert]
  split <;> rfl

/-- An index agrees for a document with one in which another document has changed. -/
theorem agrees_replace (apart : uri ≠ document.uri) (changed : DocumentIndex) :
    index.Agrees (index.replace uri changed) document.uri where
  startupFile := rfl
  startupUri := rfl
  document := by rw [document_replace, if_neg apart.symm]
  globalVariables _ := rfl
  scenes _ := .rfl
  achievements _ := .rfl

/-- The diagnostics of a document are the same in two indexes that agree for it, on the names of the
labels that its jumps ask for too. In particular any other document may change in all but the names
of its labels. -/
theorem check_noninterference :
    (∀ (index other : ProjectIndex) (document : Document), index.Agrees other document.uri →
      index.SameLabels other document.uri →
      other.check document Rule.defaults = index.check document Rule.defaults) ∧
    ∀ (index : ProjectIndex) (document : Document) (uri : String) (changed : DocumentIndex),
      uri ≠ document.uri → changed.labels.keys = (index.document uri).labels.keys →
      (index.replace uri changed).check document Rule.defaults =
        index.check document Rule.defaults := by
  constructor
  · intro index other document agrees labels
    exact check_agrees agrees labels.stands
  · intro index document uri changed apart names
    apply check_agrees (agrees_replace apart changed)
    apply SameLabels.stands
    intro event _ file _ label
    rw [document_replace]
    split
    · rename_i same
      rw [names, same]
    · rfl

/-- What the scene of the linked workspace comes to when much is added to it, but no label. -/
def crowdedScene : DocumentIndex :=
  (((Workspace.linked.call (.update "file:///game/b.txt"
    "*params\n*temp gold 1\n*set silver \x7b\n*label foo\n*goto nowhere\n*if".toList)).2).index.document
      "file:///game/b.txt")

/-- The file that jumps to the scene. -/
def jumper : Document := ⟨"file:///game/a.txt", "*goto_scene b foo\n".toList, 0⟩

theorem crowdedScene_unseen :
    crowdedScene ≠ Workspace.linked.index.document "file:///game/b.txt" ∧
    (Workspace.linked.index.replace "file:///game/b.txt" crowdedScene).check jumper Rule.defaults =
      Workspace.linked.index.check jumper Rule.defaults ∧
    { Workspace.linked.index with scenes := ["b", "b"] }.check jumper Rule.defaults =
      Workspace.linked.index.check jumper Rule.defaults := by
  obtain ⟨apart, differ, names, listed⟩ :
      "file:///game/b.txt" ≠ jumper.uri ∧
      crowdedScene ≠ Workspace.linked.index.document "file:///game/b.txt" ∧
      crowdedScene.labels.keys =
        (Workspace.linked.index.document "file:///game/b.txt").labels.keys ∧
      Workspace.linked.index.scenes = ["b"] := by
    decide +kernel
  refine ⟨differ, check_noninterference.2 _ jumper _ crowdedScene apart names, ?_⟩
  apply check_noninterference.1
  · refine ⟨rfl, rfl, rfl, fun _ => rfl, fun scene => ?_, fun _ => .rfl⟩
    rw [listed]
    simp
  · exact fun event _ file _ label => .rfl

end ChoiceScript.ProjectIndex
