import ChoiceScript.Proofs.Diagnostic.Sorting
import ChoiceScript.Proofs.Index.Reading
import ChoiceScript.Proofs.Rule.Passing
import Mathlib.Algebra.Order.BigOperators.Group.List
import Mathlib.Algebra.Order.Group.Nat

/-! # What the diagnostics of a document depend on

When the index of some other document changes and the tables of the project do not, only jumps into
that document can be judged anew, and only by whether their label stands there. A jump that is judged
anew gains or loses a diagnostic, and no other jump makes up for it: a diagnostic has the place of
its label, so two jumps with one diagnostic name one label.
-/

namespace ChoiceScript

namespace ProjectIndex

/-- Two indexes differ at most in what they hold of one document. -/
structure SameBut (index other : ProjectIndex) (changed : String) : Prop where
  startupFile : other.startupFile = index.startupFile
  startupUri : other.startupUri = index.startupUri
  globalVariables : other.globalVariables = index.globalVariables
  scenes : other.scenes = index.scenes
  achievements : other.achievements = index.achievements
  document : ∀ uri, uri ≠ changed → other.document uri = index.document uri

variable {index other : ProjectIndex} {changed : String}

theorem sameBut_refl (index : ProjectIndex) (changed : String) : index.SameBut index changed :=
  ⟨rfl, rfl, rfl, rfl, rfl, fun _ _ => rfl⟩

theorem SameBut.symm (same : index.SameBut other changed) : other.SameBut index changed where
  startupFile := same.startupFile.symm
  startupUri := same.startupUri.symm
  globalVariables := same.globalVariables.symm
  scenes := same.scenes.symm
  achievements := same.achievements.symm
  document uri apart := (same.document uri apart).symm

theorem sameBut_afterReading (index : ProjectIndex) (changed : String) (summary : Summary)
    (document : DocumentIndex) :
    index.SameBut (index.afterReading changed false summary document) changed where
  startupFile := rfl
  startupUri := rfl
  globalVariables := rfl
  scenes := rfl
  achievements := rfl
  document uri apart := by rw [document_afterReading, if_neg apart]

theorem sameBut_remove (kept : index.startupUri ≠ some changed) :
    index.SameBut (index.remove changed) changed := by
  refine ⟨startupFile_remove index changed, ?_, ?_, ?_, ?_, fun uri apart => document_remove apart⟩
  all_goals simp only [remove, kept, if_false]

/-- The files of scenes stand beside the startup file. -/
theorem sceneUri?_same (same : other.startupUri = index.startupUri) (scene : String) :
    other.sceneUri? scene = index.sceneUri? scene := by
  simp only [ProjectIndex.sceneUri?, same]

/-- Two indexes agree on the tables of the project. -/
structure SameTables (index other : ProjectIndex) : Prop where
  startupFile : other.startupFile = index.startupFile
  startupUri : other.startupUri = index.startupUri
  globalVariables : other.globalVariables = index.globalVariables
  scenes : other.scenes = index.scenes
  achievements : other.achievements = index.achievements

theorem SameTables.symm (same : index.SameTables other) : other.SameTables index :=
  ⟨same.startupFile.symm, same.startupUri.symm, same.globalVariables.symm, same.scenes.symm,
    same.achievements.symm⟩

/-- Two indexes agree on the tables of the project and on one document. -/
structure SameFor (index other : ProjectIndex) (uri : String) : Prop
    extends index.SameTables other where
  document : other.document uri = index.document uri

theorem SameBut.sameFor (same : index.SameBut other changed) {uri : String} (apart : uri ≠ changed) :
    index.SameFor other uri :=
  { same with document := same.document uri apart }

/-- Two indexes agree on what the check of a document reads, the labels of other files apart: of the
tables of the project it reads where a variable was created, which scenes there are and how the
achievements are called. -/
structure Agrees (index other : ProjectIndex) (uri : String) : Prop where
  startupFile : other.startupFile = index.startupFile
  startupUri : other.startupUri = index.startupUri
  document : other.document uri = index.document uri
  globalVariables : ∀ name, other.globalVariables.get? name = index.globalVariables.get? name
  scenes : ∀ scene, scene ∈ other.scenes ↔ scene ∈ index.scenes
  achievements : ∀ codename,
    codename ∈ other.achievements.keys ↔ codename ∈ index.achievements.keys

theorem SameFor.agrees {uri : String} (same : index.SameFor other uri) : index.Agrees other uri where
  startupFile := same.startupFile
  startupUri := same.startupUri
  document := same.document
  globalVariables name := by rw [same.globalVariables]
  scenes scene := by rw [same.scenes]
  achievements codename := by rw [same.achievements]

end ProjectIndex

/-- Of the achievements only their names tell which variables are theirs. -/
theorem Vocabulary.isAchievementVariable_congr {codenames others : List String}
    (same : ∀ codename, codename ∈ others ↔ codename ∈ codenames) (name : String) :
    isAchievementVariable others name = isAchievementVariable codenames name := by
  have contains : ∀ codename, others.contains codename = codenames.contains codename := by
    intro codename
    rw [Bool.eq_iff_iff, List.contains_iff_mem, List.contains_iff_mem, same]
  unfold isAchievementVariable
  split <;> simp only [contains]

namespace Rule

open ProjectIndex

variable {index other : ProjectIndex} {changed : String} {document : Document} {event : FlowEvent}

/-- The check of a jump asks for its label in the file of its scene. -/
structure Asks (index : ProjectIndex) (event : FlowEvent) (file : String) : Prop where
  sceneGiven : event.sceneLocation.isSome = true
  sceneNamed : event.scene ≠ ""
  scenePlain : isComputed event.scene = false
  sceneListed : event.scene ∈ index.scenes
  labelGiven : event.labelLocation.isSome = true
  labelNamed : event.label ≠ ""
  labelPlain : isComputed event.label = false
  found : index.sceneUri? event.scene = .ok (some file)

theorem Asks.of_same {file : String} (asks : Asks index event file)
    (same : index.SameBut other changed) : Asks other event file :=
  { asks with
    sceneListed := same.scenes ▸ asks.sceneListed
    found := (sceneUri?_same same.startupUri event.scene).trans asks.found }

/-- Is the label of a jump in a file? -/
def labelStands (index : ProjectIndex) (event : FlowEvent) (file : String) : Bool :=
  (index.document file).labels.contains event.label

theorem labelStands_same (same : index.SameBut other changed) {file : String}
    (elsewhere : file ≠ changed) : labelStands other event file = labelStands index event file := by
  simp only [labelStands, same.document file elsewhere]

/-- Uses of variables are judged by the index of their own document and the tables of the project. -/
theorem variableUse_agrees (agrees : index.Agrees other document.uri) :
    variableUse.run (.of document other) = variableUse.run (.of document index) := by
  have own := agrees.document
  have inspected : (Inspection.of document other).documentIndex =
      (Inspection.of document index).documentIndex := own
  have creations : (Inspection.of document other).creation? =
      (Inspection.of document index).creation? := by
    funext name
    simp only [Inspection.creation?, Inspection.documentIndex, Inspection.of, effectiveCreations,
      own, agrees.globalVariables]
  have uses : undefinedUses (.of document other) = undefinedUses (.of document index) := by
    funext name locations
    have achievements : Vocabulary.isAchievementVariable
        (Inspection.of document other).index.achievements.keys name =
          Vocabulary.isAchievementVariable
            (Inspection.of document index).index.achievements.keys name :=
      Vocabulary.isAchievementVariable_congr agrees.achievements name
    unfold undefinedUses
    rw [inspected, achievements]
  have judged : variableDiagnostics (.of document other) =
      variableDiagnostics (.of document index) := by
    funext place name locations
    unfold variableDiagnostics
    rw [creations, uses]
  have startup : (Inspection.of document other).index.isStartup document.uri =
      (Inspection.of document index).index.isStartup document.uri := by
    simp only [isStartup, Inspection.of, agrees.startupFile]
  unfold variableUse
  change ((Inspection.of document other).index.isStartup document.uri >>= _) =
    ((Inspection.of document index).index.isStartup document.uri >>= _)
  rw [startup, inspected, judged]

theorem labelDiagnostics_same {file : String} (location : Location)
    (stands : labelStands other event file = labelStands index event file) :
    labelDiagnostics (.of document other) event.label file location =
      labelDiagnostics (.of document index) event.label file location := by
  have held : ((Inspection.of document other).index.document file).labels.contains event.label =
      ((Inspection.of document index).index.document file).labels.contains event.label := stands
  unfold labelDiagnostics
  rw [held]

theorem checkedLabel_same {file? : Except Fault (Option String)}
    (stands : ∀ file, file? = .ok (some file) → event.labelLocation.isSome = true →
      event.label ≠ "" → isComputed event.label = false →
      labelStands other event file = labelStands index event file) :
    checkedLabel (.of document other) event file? =
      checkedLabel (.of document index) event file? := by
  unfold checkedLabel
  split
  · rfl
  · rename_i location given
    split
    · rfl
    · rename_i named
      simp only [Bool.or_eq_true, decide_eq_true_eq, not_or, Bool.not_eq_true] at named
      cases file? with
      | error fault => rfl
      | ok target =>
          cases target with
          | none => rfl
          | some file =>
              exact labelDiagnostics_same location
                (stands file rfl (by rw [given]; rfl) named.1 named.2)

/-- A jump is judged as before unless its label comes or goes in the file that it leads to. -/
theorem jumpDiagnostics_agrees (agrees : index.Agrees other document.uri)
    (stands : ∀ file, Asks index event file →
      labelStands other event file = labelStands index event file) :
    jumpDiagnostics (.of document other) event = jumpDiagnostics (.of document index) event := by
  have inOwn : checkedLabel (.of document other) event (.ok (some document.uri)) =
      checkedLabel (.of document index) event (.ok (some document.uri)) := by
    refine checkedLabel_same fun file given _ _ _ => ?_
    obtain rfl : document.uri = file := by simpa using given
    simp only [labelStands, agrees.document]
  have scenes : (Inspection.of document other).index.scenes.contains event.scene =
      (Inspection.of document index).index.scenes.contains event.scene := by
    rw [Bool.eq_iff_iff, List.contains_iff_mem, List.contains_iff_mem]
    exact agrees.scenes event.scene
  unfold jumpDiagnostics
  split
  · rename_i location given
    split
    · exact inOwn
    rename_i named
    split
    · rfl
    rename_i plain
    rw [scenes]
    split
    · rfl
    rename_i listed
    have found : (Inspection.of document other).index.sceneUri? event.scene =
        (Inspection.of document index).index.sceneUri? event.scene :=
      sceneUri?_same agrees.startupUri event.scene
    rw [found]
    refine checkedLabel_same fun file reached labelGiven labelNamed labelPlain => stands file ?_
    exact ⟨by rw [given]; rfl, named, by simpa using plain, by simpa [Inspection.of] using listed,
      labelGiven, labelNamed, labelPlain, reached⟩
  · exact inOwn

/-- The one question that a jump asks decides on its diagnostics. -/
theorem jumpDiagnostics_of_asks {file : String} (asks : Asks index event file) :
    ∃ location, event.labelLocation = some location ∧
      jumpDiagnostics (.of document index) event =
        labelDiagnostics (.of document index) event.label file location := by
  obtain ⟨scenePlace, sceneGiven⟩ := Option.isSome_iff_exists.1 asks.sceneGiven
  obtain ⟨location, given⟩ := Option.isSome_iff_exists.1 asks.labelGiven
  refine ⟨location, given, ?_⟩
  have listed : (Inspection.of document index).index.scenes.contains event.scene = true := by
    simpa [Inspection.of] using asks.sceneListed
  have found : (Inspection.of document index).index.sceneUri? event.scene = .ok (some file) :=
    asks.found
  simp only [jumpDiagnostics, sceneGiven, asks.sceneNamed, asks.scenePlain, listed, found,
    checkedLabel, given, asks.labelNamed, asks.labelPlain]
  rfl

/-- What is wrong with a jump, if it can be judged. -/
def findings (inspection : Inspection) (event : FlowEvent) : List Diagnostic :=
  match jumpDiagnostics inspection event with
  | .ok found => found
  | .error _ => []

/-- The jump can be judged. -/
def Judged (inspection : Inspection) (event : FlowEvent) : Prop :=
  ∃ found, jumpDiagnostics inspection event = .ok found

theorem Judged.findings_eq {inspection : Inspection} (judged : Judged inspection event) :
    jumpDiagnostics inspection event = .ok (findings inspection event) := by
  obtain ⟨found, passed⟩ := judged
  simp only [findings, passed]

theorem jumps_eq {inspection : Inspection}
    (judged : ∀ event ∈ inspection.documentIndex.flowEvents, Judged inspection event) :
    jumps.run inspection =
      .ok (inspection.documentIndex.flowEvents.flatMap (findings inspection)) := by
  have found := Outcome.mapM_eq fun event member => (judged event member).findings_eq
  simp only [jumps, found, Outcome.bind_ok, Outcome.pure_eq, List.flatMap]

theorem findings_of_standing {file : String} (asks : Asks index event file)
    (stands : labelStands index event file = true) : findings (.of document index) event = [] := by
  obtain ⟨location, -, asked⟩ := jumpDiagnostics_of_asks asks
  have held : ((Inspection.of document index).index.document file).labels.contains event.label = true :=
    stands
  rw [findings, asked, labelDiagnostics, if_pos held]
  rfl

/-- A missing label is found where it stands in the jump. -/
theorem findings_of_missing {file : String} (asks : Asks index event file)
    (missing : labelStands index event file = false) (judged : Judged (.of document index) event) :
    ∃ location diagnostic, event.labelLocation = some location ∧
      findings (.of document index) event = [diagnostic] ∧ diagnostic.range = location.range := by
  obtain ⟨location, given, asked⟩ := jumpDiagnostics_of_asks asks
  have absent :
      ¬ ((Inspection.of document index).index.document file).labels.contains event.label = true := by
    rw [Bool.not_eq_true]
    exact missing
  have found := judged.findings_eq
  rw [asked, labelDiagnostics, if_neg absent] at found
  obtain ⟨name, -, made⟩ := Outcome.bind_eq_ok found
  obtain ⟨diagnostic, rendered, listed⟩ := Outcome.bind_eq_ok made
  exact ⟨location, diagnostic, given, (Except.ok.inj listed).symm, Notice.range_of_onRange rendered⟩

/-- When the label of a jump goes, its diagnostic is found once more than before. -/
theorem count_findings_lt {events : List FlowEvent} (same : index.SameBut other changed)
    (apart : document.uri ≠ changed) (truthful : ∀ event ∈ events, event.Truthful document)
    (judged : ∀ event ∈ events, Judged (.of document index) event)
    (judgedAfter : ∀ event ∈ events, Judged (.of document other) event) (member : event ∈ events)
    (asks : Asks index event changed) (stood : labelStands index event changed = true)
    (gone : labelStands other event changed = false) :
    ∃ diagnostic, (events.flatMap (findings (.of document index))).count diagnostic <
      (events.flatMap (findings (.of document other))).count diagnostic := by
  obtain ⟨place, lost, given, found, atPlace⟩ :=
    findings_of_missing (asks.of_same same) gone (judgedAfter event member)
  refine ⟨lost, ?_⟩
  rw [List.count_flatMap, List.count_flatMap]
  refine List.sum_lt_sum _ _ (fun jump present => ?_) ⟨event, member, ?_⟩
  · by_cases agree : ∀ file, Asks index jump file →
        labelStands other jump file = labelStands index jump file
    · simp only [Function.comp_apply, findings, jumpDiagnostics_agrees (same.sameFor apart).agrees agree, le_refl]
    simp only [not_forall] at agree
    obtain ⟨file, asked, differ⟩ := agree
    obtain rfl : file = changed := by
      by_contra elsewhere
      exact differ (labelStands_same same elsewhere)
    cases stands : labelStands index jump file with
    | true => simp [findings_of_standing asked stands]
    | false =>
        obtain ⟨spot, old, jumpGiven, jumpFound, atSpot⟩ :=
          findings_of_missing asked stands (judged jump present)
        -- one diagnostic of both jumps would have one place, and so both would name one label
        have apartFromLost : old ≠ lost := by
          rintro rfl
          have ranges : spot.range = place.range := atSpot.symm.trans atPlace
          have named := ((truthful jump present).label spot (by simp [jumpGiven])).slice
          have namedToo := ((truthful event member).label place (by simp [given])).slice
          rw [ranges, namedToo] at named
          have labels : event.label = jump.label := String.toList_inj.1 named
          refine differ ?_
          rw [stands]
          simpa only [labelStands, labels] using gone
        simp [jumpFound, apartFromLost]
  · simp [findings_of_standing asks stood, found]

/-- While no diagnostic is found more often than before, no label goes. -/
theorem labelStands_of_counts {events : List FlowEvent} (same : index.SameBut other changed)
    (apart : document.uri ≠ changed) (truthful : ∀ event ∈ events, event.Truthful document)
    (judged : ∀ event ∈ events, Judged (.of document index) event)
    (judgedAfter : ∀ event ∈ events, Judged (.of document other) event)
    (counts : ∀ diagnostic, (events.flatMap (findings (.of document other))).count diagnostic =
      (events.flatMap (findings (.of document index))).count diagnostic)
    (member : event ∈ events) {file : String} (asks : Asks index event file)
    (stood : labelStands index event file = true) : labelStands other event file = true := by
  by_contra gone
  obtain rfl : file = changed := by
    by_contra elsewhere
    exact gone ((labelStands_same same elsewhere).trans stood)
  obtain ⟨diagnostic, more⟩ := count_findings_lt same apart truthful judged judgedAfter member asks
    stood (by simpa using gone)
  have := counts diagnostic
  omega

end Rule

namespace ProjectIndex

open Rule

variable {index other : ProjectIndex} {changed : String} {document : Document}

/-- The diagnostics of a document with what its jumps find made plain. -/
theorem exists_check_eq (same : index.SameBut other changed) (apart : document.uri ≠ changed)
    (readable : Uri.Readable document.uri)
    (judged : ∀ event ∈ (index.document document.uri).flowEvents, Judged (.of document index) event)
    (judgedAfter : ∀ event ∈ (index.document document.uri).flowEvents,
      Judged (.of document other) event) :
    ∃ errors rest,
      index.check document Rule.defaults = .ok (Diagnostic.sort (errors ++
        ((index.document document.uri).flowEvents.flatMap (findings (.of document index)) ++ rest))) ∧
      other.check document Rule.defaults = .ok (Diagnostic.sort (errors ++
        ((index.document document.uri).flowEvents.flatMap (findings (.of document other)) ++ rest))) := by
  have own := same.document document.uri apart
  have inspected : (Inspection.of document other).documentIndex = index.document document.uri := own
  have jumpsRun : jumps.run (.of document index) = _ := jumps_eq judged
  have jumpsRunAfter : jumps.run (.of document other) = _ := jumps_eq (by rwa [inspected])
  obtain ⟨uses, placed, marks, usesRun, placedRun, marksRun⟩ :
      ∃ uses placed marks, variableUse.run (.of document index) = .ok uses ∧
        placement.run (.of document index) = .ok placed ∧
        punctuation.run (.of document index) = .ok marks := others_ok readable
  have usesRunAfter := (variableUse_agrees (same.sameFor apart).agrees).trans usesRun
  refine ⟨(index.document document.uri).errors, uses ++ (placed ++ marks), ?_, ?_⟩
  · rw [check_eq jumpsRun usesRun placedRun marksRun]
    simp only [List.flatten_cons, List.flatten_nil, List.append_nil]
    rfl
  · rw [check_eq jumpsRunAfter usesRunAfter placedRun marksRun, own, inspected]
    simp only [List.flatten_cons, List.flatten_nil, List.append_nil]

/-- The check of a document needs the document, the tables of the project and the labels that the
jumps of the document ask for. -/
theorem check_agrees (agrees : index.Agrees other document.uri)
    (stands : ∀ event ∈ (index.document document.uri).flowEvents, ∀ file, Asks index event file →
      labelStands other event file = labelStands index event file) :
    other.check document Rule.defaults = index.check document Rule.defaults := by
  have events : (Inspection.of document other).documentIndex.flowEvents =
      (index.document document.uri).flowEvents := congrArg DocumentIndex.flowEvents agrees.document
  have jumpsRun : jumps.run (.of document other) = jumps.run (.of document index) := by
    have judged := Outcome.mapM_congr fun event member =>
      jumpDiagnostics_agrees agrees (stands event member)
    simp only [jumps, events, judged]
    rfl
  have found : Rule.defaults.mapM (·.run (.of document other)) =
      Rule.defaults.mapM (·.run (.of document index)) := by
    apply Outcome.mapM_congr
    intro rule member
    simp only [Rule.defaults, List.mem_cons, List.not_mem_nil, or_false] at member
    rcases member with rfl | rfl | rfl | rfl
    · exact jumpsRun
    · exact variableUse_agrees agrees
    · rfl
    · rfl
  simp only [check, found, agrees.document]

/-- The diagnostics of a document stay the same just when no label that its jumps ask for comes or
goes. -/
theorem check_same_iff (same : index.SameBut other changed) (apart : document.uri ≠ changed)
    (readable : Uri.Readable document.uri) (faithful : (index.document document.uri).Faithful document)
    (judged : ∀ event ∈ (index.document document.uri).flowEvents, Judged (.of document index) event)
    (judgedAfter : ∀ event ∈ (index.document document.uri).flowEvents,
      Judged (.of document other) event) :
    other.check document Rule.defaults = index.check document Rule.defaults ↔
      ∀ event ∈ (index.document document.uri).flowEvents, ∀ file, Asks index event file →
        labelStands other event file = labelStands index event file := by
  obtain ⟨errors, rest, checked, checkedAfter⟩ :=
    exists_check_eq same apart readable judged judgedAfter
  rw [checked, checkedAfter, Except.ok.injEq]
  constructor
  · intro sorted event member file asks
    have counts : ∀ diagnostic,
        ((index.document document.uri).flowEvents.flatMap (findings (.of document other))).count
            diagnostic =
          ((index.document document.uri).flowEvents.flatMap (findings (.of document index))).count
            diagnostic := by
      intro diagnostic
      have found := congrArg (List.count diagnostic) sorted
      simp only [(Diagnostic.sort_perm _).count_eq, List.count_append] at found
      omega
    -- a label that comes is one that goes when the two indexes change places
    refine Bool.eq_iff_iff.2 ⟨?_, ?_⟩
    · exact labelStands_of_counts same.symm apart faithful.flowEvents judgedAfter judged
        (fun diagnostic => (counts diagnostic).symm) member (asks.of_same same)
    · exact labelStands_of_counts same apart faithful.flowEvents judged judgedAfter counts member asks
  · intro stands
    have found : (index.document document.uri).flowEvents.flatMap (findings (.of document other)) =
        (index.document document.uri).flowEvents.flatMap (findings (.of document index)) := by
      apply List.flatMap_congr
      intro event member
      simp only [findings, jumpDiagnostics_agrees (same.sameFor apart).agrees (stands event member)]
    rw [found]

end ProjectIndex

end ChoiceScript
