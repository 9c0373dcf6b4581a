import ChoiceScript.Proofs.Index.Fidelity
import ChoiceScript.Proofs.Rule.Dependence
import ChoiceScript.Proofs.Rule.Jumps
import ChoiceScript.Proofs.Signpost.Document
import ChoiceScript.Proofs.Workspace.Staleness

/-! # Jumps that lead nowhere are found exactly

In a reached workspace each jump of an open document is told at most one error, and no others of
these kinds are told: a jump inside the file needs its label among the labels of the document, a jump
to a scene needs the scene to be listed and then its label among those of the open document in the
scene's file. Labels and jumps are those that the documents report, not those of an index.
-/

namespace ChoiceScript

namespace Workspace

/-- An open document as it is read. -/
def source (workspace : Workspace) (document : Document) : Source :=
  ⟨document, workspace.index.startupFile⟩

/-- An open document with the given address has the label. -/
def HasLabel (workspace : Workspace) (uri label : String) : Prop :=
  ∃ document, workspace.documents.get? uri = some document ∧
    ∃ location, (label, location) ∈ (workspace.source document).labels

/-- What a jump of a document misses, and the error that says so where the target stands. -/
inductive Misses (workspace : Workspace) (document : Document) (event : FlowEvent) : Diagnostic → Prop
  | label {location : Location} {file : String}
      (inFile : event.command = "goto" ∨ event.command = "gosub") (plain : Rule.IsPlain event.label)
      (missing : ¬ ∃ location, (event.label, location) ∈ (workspace.source document).labels)
      (place : event.labelLocation = some location) (named : Uri.fileName document.uri = .ok file) :
      Misses workspace document event (Rule.labelError event.label file location.range)
  | scene {location : Location}
      (toScene : event.command = "goto_scene" ∨ event.command = "gosub_scene")
      (plain : Rule.IsPlain event.scene) (missing : event.scene ∉ workspace.index.scenes)
      (place : event.sceneLocation = some location) :
      Misses workspace document event (Rule.sceneError event.scene location.range)
  | sceneLabel {location : Location} {uri file : String}
      (toScene : event.command = "goto_scene" ∨ event.command = "gosub_scene")
      (plainScene : Rule.IsPlain event.scene) (listed : event.scene ∈ workspace.index.scenes)
      (plain : Rule.IsPlain event.label) (found : workspace.index.sceneUri? event.scene = .ok (some uri))
      (missing : ¬ workspace.HasLabel uri event.label)
      (place : event.labelLocation = some location) (named : Uri.fileName uri = .ok file) :
      Misses workspace document event (Rule.labelError event.label file location.range)

variable {workspace : Workspace} {uri : String} {document : Document} {event : FlowEvent}

theorem hasLabel_iff {label : String} (open_ : workspace.documents.get? uri = some document) :
    workspace.HasLabel uri label ↔ ∃ location, (label, location) ∈ (workspace.source document).labels := by
  simp only [HasLabel, open_, Option.some.injEq, exists_eq_left']

theorem Coherent.passed (coherent : workspace.Coherent)
    (open_ : workspace.documents.get? uri = some document) :
    (Parser.whole.run (workspace.source document)).1 = .ok () := by
  apply Parser.whole_passes
  rw [source, (coherent.documents uri document open_).1]
  exact coherent.readable open_

theorem Coherent.fileName (coherent : workspace.Coherent)
    (open_ : workspace.documents.get? uri = some document) :
    ∃ file, Uri.fileName document.uri = .ok file := by
  rw [(coherent.documents uri document open_).1]
  exact (coherent.readable open_).fileName

/-- The index has the labels of the open documents. -/
theorem Coherent.contains_label (coherent : workspace.Coherent) (uri label : String) :
    (workspace.index.document uri).labels.contains label = true ↔ workspace.HasLabel uri label := by
  rw [OrderedMap.contains_iff]
  cases open_ : workspace.documents.get? uri with
  | some document =>
      obtain ⟨rfl, indexes⟩ := coherent.documents uri document open_
      obtain ⟨isStartup, summary, reads⟩ := indexes.read
      rw [reads.sumsUp.labels.mem_keys]
      constructor
      · exact fun has => ⟨document, open_, has⟩
      · rintro ⟨other, again, has⟩
        obtain rfl := Option.some.inj (open_.symm.trans again)
        exact has
  | none =>
      have unknown : workspace.index.documents.get? uri = none := by
        rw [OrderedMap.get?_eq_none, ← coherent.uris, Workspace.uris]
        exact OrderedMap.get?_eq_none.1 open_
      constructor
      · intro member
        rw [ProjectIndex.document, unknown, Option.getD_none] at member
        cases member
      · rintro ⟨document, opened, -⟩
        rw [open_] at opened
        cases opened

/-- The file of a listed scene that is looked for can be found. -/
theorem Coherent.sceneFile (coherent : workspace.Coherent) (normal : workspace.Normal)
    (open_ : workspace.documents.get? uri = some document)
    (member : event ∈ (workspace.source document).flows) (plain : Rule.IsPlain event.scene)
    (listed : event.scene ∈ workspace.index.scenes) :
    ∃ file name, workspace.index.sceneUri? event.scene = .ok (some file) ∧
      Uri.fileName file = .ok name := by
  obtain ⟨isStartup, summary, reads⟩ := (coherent.documents uri document open_).2.read
  have stored : event ∈ (workspace.index.document document.uri).flowEvents := by
    rw [reads.sumsUp.flowEvents]
    exact member
  obtain ⟨file?, found, readable⟩ := coherent.scenes normal open_ event stored plain.plain
  cases file? with
  | some file =>
      obtain ⟨name, named⟩ := (readable file rfl).fileName
      exact ⟨file, name, found, named⟩
  | none =>
      rcases coherent.tables with ownerless | ⟨owner, startup, -, owned⟩
      · rw [ownerless.scenes] at listed
        cases listed
      · rw [ProjectIndex.sceneUri?, owned.startupUri] at found
        obtain ⟨beside, -, same⟩ := Outcome.bind_eq_ok found
        cases same

section Misses

variable {diagnostic : Diagnostic}

/-- Inside a file only a label can be missed. -/
theorem misses_inFile {location : Location} {file : String}
    (inFile : event.command = "goto" ∨ event.command = "gosub")
    (place : event.labelLocation = some location) (named : Uri.fileName document.uri = .ok file) :
    workspace.Misses document event diagnostic ↔ Rule.IsPlain event.label ∧
      (¬ ∃ location, (event.label, location) ∈ (workspace.source document).labels) ∧
      diagnostic = Rule.labelError event.label file location.range := by
  have noScene := not_toScene_of_inFile inFile
  constructor
  · intro misses
    cases misses with
    | label _ plain missing placed fileNamed =>
        obtain rfl := Option.some.inj (place.symm.trans placed)
        obtain rfl := Except.ok.inj (named.symm.trans fileNamed)
        exact ⟨plain, missing, rfl⟩
    | scene toScene => exact absurd toScene noScene
    | sceneLabel toScene => exact absurd toScene noScene
  · rintro ⟨plain, missing, rfl⟩
    exact .label inFile plain missing place named

/-- A scene that is looked for is missed if it is not listed, and nothing else then. -/
theorem misses_unlisted {location : Location}
    (toScene : event.command = "goto_scene" ∨ event.command = "gosub_scene")
    (plain : Rule.IsPlain event.scene) (unlisted : event.scene ∉ workspace.index.scenes)
    (place : event.sceneLocation = some location) :
    workspace.Misses document event diagnostic ↔
      diagnostic = Rule.sceneError event.scene location.range := by
  constructor
  · intro misses
    cases misses with
    | label inFile => exact absurd toScene (not_toScene_of_inFile inFile)
    | scene _ _ _ placed =>
        obtain rfl := Option.some.inj (place.symm.trans placed)
        rfl
    | sceneLabel _ _ listed => exact absurd listed unlisted
  · rintro rfl
    exact .scene toScene plain unlisted place

/-- Once its scene is listed, a jump misses its label or nothing. -/
theorem misses_listed {file name : String}
    (toScene : event.command = "goto_scene" ∨ event.command = "gosub_scene")
    (plain : Rule.IsPlain event.scene) (listed : event.scene ∈ workspace.index.scenes)
    (found : workspace.index.sceneUri? event.scene = .ok (some file))
    (named : Uri.fileName file = .ok name) :
    workspace.Misses document event diagnostic ↔ Rule.IsPlain event.label ∧
      ¬ workspace.HasLabel file event.label ∧ ∃ location, event.labelLocation = some location ∧
        diagnostic = Rule.labelError event.label name location.range := by
  constructor
  · intro misses
    cases misses with
    | label inFile => exact absurd toScene (not_toScene_of_inFile inFile)
    | scene _ _ unlisted => exact absurd listed unlisted
    | sceneLabel _ _ _ plainLabel foundToo missing place namedToo =>
        obtain rfl := Option.some.inj (Except.ok.inj (found.symm.trans foundToo))
        obtain rfl := Except.ok.inj (named.symm.trans namedToo)
        exact ⟨plainLabel, missing, _, place, rfl⟩
  · rintro ⟨plainLabel, missing, location, place, rfl⟩
    exact .sceneLabel toScene plain listed plainLabel found missing place named

/-- What is not looked for is not missed. -/
theorem not_misses (noLabel : event.command = "goto" ∨ event.command = "gosub" → ¬ Rule.IsPlain event.label)
    (noScene : event.command = "goto_scene" ∨ event.command = "gosub_scene" →
      ¬ Rule.IsPlain event.scene) : ¬ workspace.Misses document event diagnostic := by
  intro misses
  cases misses with
  | label inFile plain => exact noLabel inFile plain
  | scene toScene plain => exact noScene toScene plain
  | sceneLabel toScene plain => exact noScene toScene plain

end Misses

/-- The rule tells a jump what it misses, which is one thing at most. -/
def Judged (workspace : Workspace) (document : Document) (event : FlowEvent) : Prop :=
  ∃ told : Option Diagnostic,
    Rule.jumpDiagnostics (.of document workspace.index) event = .ok told.toList ∧
    ∀ diagnostic, told = some diagnostic ↔ workspace.Misses document event diagnostic

theorem judged_nothing (found : Rule.jumpDiagnostics (.of document workspace.index) event = .ok [])
    (nothing : ∀ diagnostic, ¬ workspace.Misses document event diagnostic) :
    workspace.Judged document event :=
  ⟨none, found, fun diagnostic => by simp [nothing diagnostic]⟩

theorem judged_one {diagnostic : Diagnostic}
    (found : Rule.jumpDiagnostics (.of document workspace.index) event = .ok [diagnostic])
    (one : ∀ other, workspace.Misses document event other ↔ other = diagnostic) :
    workspace.Judged document event :=
  ⟨some diagnostic, found, fun other => by rw [one, Option.some.injEq, eq_comm]⟩

theorem Coherent.judges_inFile (coherent : workspace.Coherent)
    (open_ : workspace.documents.get? uri = some document) {location : Location}
    (inFile : event.command = "goto" ∨ event.command = "gosub") (noScene : event.sceneLocation = none)
    (place : event.labelLocation = some location) : workspace.Judged document event := by
  have address := (coherent.documents uri document open_).1
  obtain ⟨file, named⟩ := coherent.fileName open_
  have found : Rule.jumpDiagnostics (.of document workspace.index) event =
      Rule.checkedLabel (.of document workspace.index) event (.ok (some document.uri)) :=
    Rule.jumpDiagnostics_inFile noScene
  have misses (diagnostic : Diagnostic) : workspace.Misses document event diagnostic ↔ _ :=
    misses_inFile inFile place named
  by_cases plain : Rule.IsPlain event.label
  · have has := (coherent.contains_label document.uri event.label).trans (hasLabel_iff (address ▸ open_))
    rw [Rule.checkedLabel_plain place plain named] at found
    by_cases known : ∃ location, (event.label, location) ∈ (workspace.source document).labels
    · refine judged_nothing (found.trans (congrArg _ (if_pos (has.2 known)))) fun _ missed => ?_
      exact ((misses _).1 missed).2.1 known
    · refine judged_one (found.trans (congrArg _ (if_neg (known ∘ has.1)))) fun _ => (misses _).trans ?_
      simp [plain, known]
  · exact judged_nothing (found.trans (Rule.checkedLabel_other plain)) fun _ missed =>
      plain ((misses _).1 missed).1

theorem Coherent.judges_toScene (coherent : workspace.Coherent) (normal : workspace.Normal)
    (open_ : workspace.documents.get? uri = some document)
    (member : event ∈ (workspace.source document).flows) {location : Location}
    (toScene : event.command = "goto_scene" ∨ event.command = "gosub_scene")
    (place : event.sceneLocation = some location)
    (labelled : event.labelLocation.isSome ↔ event.label ≠ "")
    (sceneFirst : event.scene = "" → event.label = "") : workspace.Judged document event := by
  by_cases plain : Rule.IsPlain event.scene
  · have found : Rule.jumpDiagnostics (.of document workspace.index) event =
        if event.scene ∈ workspace.index.scenes then
          Rule.checkedLabel (.of document workspace.index) event
            (workspace.index.sceneUri? event.scene)
        else .ok [Rule.sceneError event.scene location.range] :=
      Rule.jumpDiagnostics_toScene place plain
    by_cases listed : event.scene ∈ workspace.index.scenes
    · obtain ⟨uri, file, searched, named⟩ := coherent.sceneFile normal open_ member plain listed
      have misses (diagnostic : Diagnostic) : workspace.Misses document event diagnostic ↔ _ :=
        misses_listed toScene plain listed searched named
      rw [if_pos listed, searched] at found
      by_cases plainLabel : Rule.IsPlain event.label
      · obtain ⟨labelPlace, labelAt⟩ := Option.isSome_iff_exists.1 (labelled.2 plainLabel.given)
        have has := coherent.contains_label uri event.label
        rw [Rule.checkedLabel_plain labelAt plainLabel named] at found
        by_cases known : workspace.HasLabel uri event.label
        · refine judged_nothing (found.trans (congrArg _ (if_pos (has.2 known)))) fun _ missed => ?_
          exact ((misses _).1 missed).2.1 known
        · refine judged_one (found.trans (congrArg _ (if_neg (known ∘ has.1)))) fun _ => (misses _).trans ?_
          simp [plainLabel, known, labelAt]
      · exact judged_nothing (found.trans (Rule.checkedLabel_other plainLabel)) fun _ missed =>
          plainLabel ((misses _).1 missed).1
    · exact judged_one (found.trans (if_neg listed)) fun _ =>
        misses_unlisted toScene plain listed place
  · refine judged_nothing (Rule.jumpDiagnostics_other place plain sceneFirst) fun _ => ?_
    exact not_misses (fun inFile => absurd toScene (not_toScene_of_inFile inFile)) fun _ => plain

theorem Coherent.judges (coherent : workspace.Coherent) (normal : workspace.Normal)
    (open_ : workspace.documents.get? uri = some document)
    (member : event ∈ (workspace.source document).flows) : workspace.Judged document event := by
  cases Source.shaped_flow member with
  | back commandLocation =>
      refine judged_nothing ?_ fun _ => not_misses (by simp) (by simp)
      rw [Rule.jumpDiagnostics_inFile rfl]
      exact Rule.checkedLabel_other fun plain => plain.given rfl
  | inFile inFile commandLocation location label =>
      exact coherent.judges_inFile open_ inFile rfl rfl
  | toScene toScene commandLocation location labelled sceneFirst =>
      exact coherent.judges_toScene normal open_ member toScene rfl labelled sceneFirst

theorem lost_toScene (member : event ∈ (workspace.source document).flows)
    (toScene : event.command = "goto_scene" ∨ event.command = "gosub_scene")
    (plain : Rule.IsPlain event.scene) (unlisted : event.scene ∉ workspace.index.scenes) :
    ∃ diagnostic, workspace.Misses document event diagnostic := by
  obtain ⟨⟨location, place⟩, -⟩ := (Source.shaped_flow member).scene_placed toScene
  exact ⟨_, .scene toScene plain unlisted place⟩

section Lost

variable (coherent : workspace.Coherent) (open_ : workspace.documents.get? uri = some document)
  (member : event ∈ (workspace.source document).flows)

include coherent open_ member

/-- A jump inside a file misses something if and only if the file does not have its label. -/
theorem Coherent.lost_inFile (inFile : event.command = "goto" ∨ event.command = "gosub")
    (plain : Rule.IsPlain event.label) : (∃ diagnostic, workspace.Misses document event diagnostic) ↔
      ¬ ∃ location, (event.label, location) ∈ (workspace.source document).labels := by
  obtain ⟨file, named⟩ := coherent.fileName open_
  obtain ⟨location, place⟩ := (Source.shaped_flow member).label_placed inFile
  simp only [misses_inFile inFile place named, plain, true_and, exists_and_left, exists_eq, and_true]

/-- A jump to a label of a listed scene misses something if and only if no document in the file of the
scene has the label. -/
theorem Coherent.lost_toLabel (normal : workspace.Normal)
    (toScene : event.command = "goto_scene" ∨ event.command = "gosub_scene")
    (plain : Rule.IsPlain event.scene) (listed : event.scene ∈ workspace.index.scenes)
    (plainLabel : Rule.IsPlain event.label) :
    ∃ uri, workspace.index.sceneUri? event.scene = .ok (some uri) ∧
      ((∃ diagnostic, workspace.Misses document event diagnostic) ↔
        ¬ workspace.HasLabel uri event.label) := by
  obtain ⟨uri, file, searched, named⟩ := coherent.sceneFile normal open_ member plain listed
  obtain ⟨-, labelPlaced⟩ := (Source.shaped_flow member).scene_placed toScene
  obtain ⟨location, place⟩ := labelPlaced plainLabel.given
  refine ⟨uri, searched, ?_⟩
  simp only [misses_listed toScene plain listed searched named, plainLabel, true_and, exists_and_left,
    place, Option.some.injEq, exists_eq_left', exists_eq, and_true]

end Lost

/-- A jump to a label that a command line of the document gives misses nothing. -/
theorem Coherent.finds_label (coherent : workspace.Coherent)
    (open_ : workspace.documents.get? uri = some document)
    (member : event ∈ (workspace.source document).flows) {labelLine jumpLine : CommandLine}
    {place : Location} (labelled : (labelLine, place) ∈ (workspace.source document).commands)
    (jumps : (jumpLine, event.commandLocation) ∈ (workspace.source document).commands)
    (label : String.ofList labelLine.name = "label")
    (inFile : String.ofList jumpLine.name = "goto" ∨ String.ofList jumpLine.name = "gosub")
    (same : jumpLine.rest = labelLine.rest) (plain : labelLine.rest.head? ≠ some '{') :
    ∀ diagnostic, ¬ workspace.Misses document event diagnostic := by
  intro diagnostic misses
  have passed := coherent.passed open_
  rw [← same] at plain
  obtain ⟨command, target⟩ := Source.label_of_flow passed member jumps inFile plain
  rw [← command] at inFile
  have wanted : Rule.IsPlain event.label := by
    by_cases looked : Rule.IsPlain event.label
    · exact looked
    · exact absurd misses (not_misses (fun _ => looked) fun toScene =>
        absurd toScene (not_toScene_of_inFile inFile))
  have given : labelLine.rest.takeWhile Text.isLabel ≠ [] := by
    intro none
    rw [same, none] at target
    exact wanted.given target
  refine (coherent.lost_inFile open_ member inFile wanted).1 ⟨diagnostic, misses⟩ ?_
  rw [target, same]
  exact Source.label_of_command passed labelled label given

/-- What an open document is told about each of its jumps, and nothing else about jumps. -/
structure TellsJumps (workspace : Workspace) (document : Document) (diagnostics : List Diagnostic)
    (told : FlowEvent → Option Diagnostic) : Prop where
  said : ∀ event ∈ (workspace.source document).flows, ∀ diagnostic,
    told event = some diagnostic ↔ workspace.Misses document event diagnostic
  inFile : ∀ event ∈ (workspace.source document).flows,
    event.command = "goto" ∨ event.command = "gosub" → Rule.IsPlain event.label →
      ((told event).isSome ↔ ¬ ∃ location, (event.label, location) ∈ (workspace.source document).labels)
  toScene : ∀ event ∈ (workspace.source document).flows,
    event.command = "goto_scene" ∨ event.command = "gosub_scene" → Rule.IsPlain event.scene →
      event.scene ∉ workspace.index.scenes → (told event).isSome
  toLabel : ∀ event ∈ (workspace.source document).flows,
    event.command = "goto_scene" ∨ event.command = "gosub_scene" → Rule.IsPlain event.scene →
      event.scene ∈ workspace.index.scenes → Rule.IsPlain event.label →
        ∃ uri, workspace.index.sceneUri? event.scene = .ok (some uri) ∧
          ((told event).isSome ↔ ¬ workspace.HasLabel uri event.label)
  found : Rule.jumps.run (.of document workspace.index) =
    .ok ((workspace.source document).flows.filterMap told)
  all : (diagnostics.filter (Diagnostic.isOf [.labelNotFound, .sceneNotFound])).Perm
    ((workspace.source document).flows.filterMap told)

variable {startupFile address : String}

theorem Coherent.tellsJumps (coherent : workspace.Coherent) (normal : workspace.Normal)
    (open_ : workspace.documents.get? uri = some document) {diagnostics : List Diagnostic}
    (checked : workspace.index.check document Rule.defaults = .ok diagnostics) :
    ∃ told, workspace.TellsJumps document diagnostics told := by
  let inspection := Inspection.of document workspace.index
  let told (event : FlowEvent) : Option Diagnostic := (Rule.findings inspection event).head?
  have judged {event : FlowEvent} (member : event ∈ (workspace.source document).flows) :
      Rule.jumpDiagnostics inspection event = .ok (told event).toList ∧
      ∀ diagnostic, told event = some diagnostic ↔ workspace.Misses document event diagnostic := by
    obtain ⟨one, found, misses⟩ := coherent.judges normal open_ member
    have same : told event = one := by
      simp only [told, Rule.findings, inspection, found]
      cases one <;> rfl
    exact ⟨same ▸ found, same ▸ misses⟩
  have said {event : FlowEvent} (member : event ∈ (workspace.source document).flows) :
      (told event).isSome ↔ ∃ diagnostic, workspace.Misses document event diagnostic := by
    rw [Option.isSome_iff_exists]
    exact exists_congr (judged member).2
  obtain ⟨isStartup, summary, reads⟩ := (coherent.documents uri document open_).2.read
  have stored : inspection.documentIndex.flowEvents = (workspace.source document).flows :=
    reads.sumsUp.flowEvents
  have run : Rule.jumps.run inspection = .ok ((workspace.source document).flows.filterMap told) := by
    have lists : (workspace.source document).flows.mapM (Rule.jumpDiagnostics inspection) =
        .ok ((workspace.source document).flows.map fun event => (told event).toList) :=
      Outcome.mapM_eq fun event member => (judged member).1
    simp only [Rule.jumps, stored, lists, Outcome.bind_ok, Outcome.pure_eq, ← List.flatMap_def,
      List.filterMap_eq_flatMap_toList]
  obtain ⟨jumps, -, jumpsRun, -, all, -⟩ := ProjectIndex.found_of_check checked reads.errors_ofReading
  obtain rfl := Except.ok.inj (run.symm.trans jumpsRun)
  refine ⟨told, fun event member => (judged member).2, ?_, ?_, ?_, run, all⟩
  · intro event member inFile plain
    exact (said member).trans (coherent.lost_inFile open_ member inFile plain)
  · intro event member toScene plain unlisted
    exact (said member).2 (lost_toScene member toScene plain unlisted)
  · intro event member toScene plain listed plainLabel
    simp only [said member]
    exact coherent.lost_toLabel open_ member normal toScene plain listed plainLabel

/-- In a reached workspace the jumps of an open document are told exactly where they lead nowhere. A
label and a jump with the same arguments name the same label, so the jump is not told to miss it. -/
theorem jumps_exact (reached : Reached startupFile workspace) (normal : Uri.normalize address = .ok uri)
    (open_ : workspace.documents.get? uri = some document) :
    (∃ diagnostics told, workspace.diagnostics address = .ok diagnostics ∧
      workspace.TellsJumps document diagnostics told ∧
      ∀ event ∈ (workspace.source document).flows, ∀ labelLine jumpLine place,
        (labelLine, place) ∈ (workspace.source document).commands →
        (jumpLine, event.commandLocation) ∈ (workspace.source document).commands →
        String.ofList labelLine.name = "label" →
        String.ofList jumpLine.name = "goto" ∨ String.ofList jumpLine.name = "gosub" →
        jumpLine.rest = labelLine.rest → labelLine.rest.head? ≠ some '{' → told event = none) ∧
    ∀ (source : Source) (line : Text) (command : String) (labelStart commandStart lineStart : Nat),
      command = "goto" ∨ command = "gosub" → line.head? ≠ some '{' →
      names (· = .label) ((Parser.symbolCommand "label" line labelStart).run source).2.reports =
        (if line.takeWhile Text.isLabel = [] then []
          else [(String.ofList (line.takeWhile Text.isLabel),
            source.document.span labelStart (line.takeWhile Text.isLabel))]) ∧
      ∃ event, ((Parser.flow command commandStart line lineStart).run source).2.reports.filterMap
          Report.flow? = [event] ∧ event.label = String.ofList (line.takeWhile Text.isLabel) := by
  refine ⟨?_, fun source line command labelStart commandStart lineStart jumps plain =>
    Parser.label_and_jump_agree source labelStart jumps plain⟩
  obtain ⟨diagnostics, checked⟩ := reached.coherent.check_passes reached.normal open_
  obtain ⟨told, tells⟩ := reached.coherent.tellsJumps reached.normal open_ checked
  refine ⟨diagnostics, told, (diagnostics_eq_check normal open_).trans checked, tells, ?_⟩
  intro event member labelLine jumpLine place labelled jumps label inFile same plain
  rw [Option.eq_none_iff_forall_ne_some]
  intro diagnostic said
  exact reached.coherent.finds_label open_ member labelled jumps label inFile same plain diagnostic
    ((tells.said event member diagnostic).1 said)

/-- A scene with one jump to its own label, and three that lead nowhere. -/
def straying : Document :=
  ⟨"file:///game/a.txt",
    "*label here\n*goto here\n*goto there\n*goto_scene b\n*gosub_scene startup there\n".toList, 0⟩

/-- A project with a list of scenes, of which one strays. -/
def strayed : Workspace :=
  (ofStartupFile "startup.txt").run
    [.update "file:///game/startup.txt" "*scene_list\n  startup\n  a\n".toList,
      .update straying.uri straying.text]

theorem strayed_told : Reached "startup.txt" strayed ∧
    ∃ diagnostics, strayed.diagnostics straying.uri = .ok diagnostics ∧
      (diagnostics.filter (Diagnostic.isOf [.labelNotFound, .sceneNotFound])).Perm [
        Rule.labelError "there" "a.txt" ⟨⟨2, 6⟩, ⟨2, 11⟩, by decide⟩,
        Rule.sceneError "b" ⟨⟨3, 12⟩, ⟨3, 13⟩, by decide⟩,
        Rule.labelError "there" "startup.txt" ⟨⟨4, 21⟩, ⟨4, 26⟩, by decide⟩] := by
  have reached : Reached "startup.txt" strayed := Reached.fresh.run (by decide +kernel)
  have normal : Uri.normalize straying.uri = .ok straying.uri := by decide +kernel
  have open_ : strayed.documents.get? straying.uri = some straying := by decide +kernel
  have run : Rule.jumps.run (.of straying strayed.index) = .ok [
      Rule.labelError "there" "a.txt" ⟨⟨2, 6⟩, ⟨2, 11⟩, by decide⟩,
      Rule.sceneError "b" ⟨⟨3, 12⟩, ⟨3, 13⟩, by decide⟩,
      Rule.labelError "there" "startup.txt" ⟨⟨4, 21⟩, ⟨4, 26⟩, by decide⟩] := by decide +kernel
  obtain ⟨⟨diagnostics, told, found, tells, -⟩, -⟩ := jumps_exact reached normal open_
  have same := Except.ok.inj (tells.found.symm.trans run)
  exact ⟨reached, diagnostics, found, same ▸ tells.all⟩

end Workspace

end ChoiceScript
