import ChoiceScript.Proofs.Uri.FileAddress
import ChoiceScript.Proofs.Workspace.Returned
import ChoiceScript.Report.Project

/-! # Every folder can be checked

A file of a folder has a normal address that stays, so it can be opened whatever its text, and is then
found again by that address. What is open are the files that were opened, each known by its path and with
its text. So a folder that has a file to start with is always checked to the end, with all text files that
lie in the folder itself, and the check passes just if no open document has an error.
-/

namespace ChoiceScript

namespace Folder

theorem exists_resolved (folder : Folder) (file : FoundFile) :
    ∃ rest, folder.resolved file = '/' :: rest ∧ rest.head? ≠ some '/' := by
  refine ⟨_, rfl, fun slash => ?_⟩
  have stops := List.head?_dropWhile_not (· = '/') (Path.within folder.path file.name.toList)
  rw [slash] at stops
  simp at stops

/-- The address of a file is its own normal form. -/
theorem uriOf_passes (folder : Folder) (file : FoundFile) :
    ∃ uri, folder.uriOf file = .ok uri ∧ Uri.normalize uri = .ok uri := by
  obtain ⟨rest, path, single⟩ := folder.exists_resolved file
  rw [uriOf, path]
  exact Uri.normalize_ofFilePath single

/-- The text files that lie in the folder itself are among the others, or are known already. -/
theorem mem_otherFiles {folder : Folder} {name : String} (present : name ∈ folder.files.keys)
    (isText : isText name = true) (inside : '/' ∉ name.toList) (known : List FoundFile) :
    .plain name ∈ known ++ folder.otherFiles known := by
  rw [List.mem_append]
  by_cases before : FoundFile.plain name ∈ known
  · exact .inl before
  · refine .inr (List.mem_map_of_mem (List.mem_mergeSort.2 (List.mem_filter.2 ⟨present, ?_⟩)))
    simp [isText, inside, before]

end Folder

namespace Report

variable {folder : Folder} {files : List FoundFile} {workspace : Workspace} {pathOf : OrderedMap Text}

/-- The files are open, and nothing else is. -/
structure Opened (folder : Folder) (files : List FoundFile) (workspace : Workspace)
    (pathOf : OrderedMap Text) : Prop where
  reached : Workspace.Reached Vocabulary.startupFile workspace
  all : ∀ file ∈ files, ∃ uri ∈ workspace.uris, folder.uriOf file = .ok uri
  each : ∀ uri ∈ workspace.uris, ∃ file ∈ files, folder.uriOf file = .ok uri ∧
    pathOf.get? uri = some file.path ∧ workspace.text? uri = some (folder.text file)

theorem opened_none (folder : Folder) : Opened folder [] {} ∅ where
  reached := .fresh
  all := by simp
  each := by simp [Workspace.uris]

theorem Opened.normalize (opened : Opened folder files workspace pathOf) {uri : String}
    (known : uri ∈ workspace.uris) : Uri.normalize uri = .ok uri := by
  obtain ⟨file, -, addressed, -⟩ := opened.each uri known
  obtain ⟨normal, given, stays⟩ := folder.uriOf_passes file
  obtain rfl := Except.ok.inj (given.symm.trans addressed)
  exact stays

theorem openFile_eq {file : FoundFile} {uri : String} {stale : List String}
    (addressed : folder.uriOf file = .ok uri)
    (passed : (workspace.update uri (folder.text file)).1 = .ok stale) :
    openFile folder (workspace, pathOf) file =
      .ok ((workspace.update uri (folder.text file)).2, pathOf.insert uri file.path) := by
  rw [openFile, addressed, Outcome.bind_ok]
  cases outcome : workspace.update uri (folder.text file) with
  | mk told after =>
      rw [outcome] at passed
      cases passed
      rfl

theorem Opened.openFile (opened : Opened folder files workspace pathOf) (file : FoundFile) :
    ∃ after paths, openFile folder (workspace, pathOf) file = .ok (after, paths) ∧
      Opened folder (files ++ [file]) after paths := by
  obtain ⟨uri, addressed, stays⟩ := folder.uriOf_passes file
  have readable : Uri.Readable uri := by
    obtain ⟨parts, read, -⟩ := Uri.normalize_eq_ok stays
    exact ⟨parts, read⟩
  obtain ⟨stale, passed⟩ := Workspace.update_passes stays readable (folder.text file)
  obtain ⟨changed, document, isStartup, normal, text, updated⟩ := Workspace.update_eq_ok passed
  obtain rfl := Except.ok.inj (stays.symm.trans normal)
  refine ⟨_, _, openFile_eq addressed passed, ?_, ?_, ?_⟩
  · exact .step (.update uri (folder.text file)) opened.reached passed
  · intro other member
    rcases List.mem_append.1 member with before | last
    · obtain ⟨address, open_, given⟩ := opened.all other before
      exact ⟨address, updated.mem_uris.2 (.inr open_), given⟩
    · obtain rfl := List.mem_singleton.1 last
      exact ⟨uri, updated.mem_uris.2 (.inl rfl), addressed⟩
  · intro address open_
    rw [OrderedMap.get?_insert, Workspace.text?, updated.get?_documents]
    -- a file that is found again takes the place of the earlier one
    by_cases same : address = uri
    · subst same
      exact ⟨file, by simp, addressed, by simp, by simp [text]⟩
    · have earlier := (updated.mem_uris.1 open_).resolve_left same
      obtain ⟨other, before, given, noted, kept⟩ := opened.each address earlier
      simp only [same, if_false]
      exact ⟨other, by simp [before], given, noted, kept⟩

/-- Files can be opened one after another, whatever they hold. -/
theorem Opened.openFiles (opened : Opened folder files workspace pathOf) (more : List FoundFile) :
    ∃ after paths, openFiles folder more workspace pathOf = .ok (after, paths) ∧
      Opened folder (files ++ more) after paths := by
  induction more generalizing files workspace pathOf with
  | nil =>
      rw [List.append_nil]
      exact ⟨workspace, pathOf, rfl, opened⟩
  | cons file rest ih =>
      obtain ⟨next, noted, done, openedNext⟩ := opened.openFile file
      obtain ⟨after, paths, ran, last⟩ := ih openedNext
      rw [List.append_cons]
      refine ⟨after, paths, ?_, last⟩
      rw [Report.openFiles, List.foldlM_cons, done, Outcome.bind_ok]
      exact ran

theorem Opened.fileDiagnostics (opened : Opened folder files workspace pathOf) {uri : String}
    (known : uri ∈ workspace.uris) :
    ∃ path diagnostics, pathOf.get? uri = some path ∧ workspace.diagnostics uri = .ok diagnostics ∧
      fileDiagnostics workspace pathOf uri = .ok (diagnostics.map ((path, ·))) := by
  obtain ⟨file, -, -, noted, -⟩ := opened.each uri known
  obtain ⟨diagnostics, given⟩ :=
    opened.reached.diagnostics_passes_iff.2 ⟨uri, known, opened.normalize known⟩
  refine ⟨file.path, diagnostics, noted, given, ?_⟩
  rw [Report.fileDiagnostics, given, noted]
  rfl

/-- What is told are the diagnostics of the open documents, each with the path of its file. -/
def Tells (workspace : Workspace) (pathOf : OrderedMap Text) (found : List (Text × Diagnostic)) : Prop :=
  ∀ path diagnostic, (path, diagnostic) ∈ found ↔ ∃ uri ∈ workspace.uris, pathOf.get? uri = some path ∧
    ∃ diagnostics, workspace.diagnostics uri = .ok diagnostics ∧ diagnostic ∈ diagnostics

theorem Opened.allDiagnostics (opened : Opened folder files workspace pathOf) :
    ∃ found, allDiagnostics workspace pathOf = .ok found ∧ Tells workspace pathOf found := by
  obtain ⟨lists, ran⟩ : ∃ lists, workspace.uris.mapM (Report.fileDiagnostics workspace pathOf) = .ok lists := by
    refine Outcome.mapM_passes fun uri known => ?_
    obtain ⟨path, diagnostics, -, -, made⟩ := opened.fileDiagnostics known
    exact ⟨_, made⟩
  refine ⟨lists.flatten, ?_, fun path diagnostic => ⟨fun member => ?_, ?_⟩⟩
  · rw [Report.allDiagnostics, ran]
    rfl
  · obtain ⟨list, listed, inside⟩ := List.mem_flatten.1 member
    obtain ⟨uri, known, same⟩ := (Outcome.mem_mapM ran).1 listed
    obtain ⟨noted, diagnostics, named, given, made⟩ := opened.fileDiagnostics known
    obtain rfl := Except.ok.inj (made.symm.trans same)
    obtain ⟨other, among, pair⟩ := List.mem_map.1 inside
    cases pair
    exact ⟨uri, known, named, diagnostics, given, among⟩
  · rintro ⟨uri, known, named, diagnostics, given, among⟩
    obtain ⟨noted, others, also, again, made⟩ := opened.fileDiagnostics known
    obtain rfl := Option.some.inj (named.symm.trans also)
    obtain rfl := Except.ok.inj (given.symm.trans again)
    exact List.mem_flatten.2 ⟨_, (Outcome.mem_mapM ran).2 ⟨uri, known, made⟩, List.mem_map_of_mem among⟩

/-- No open document has an error. -/
def Clean (workspace : Workspace) : Prop :=
  ∀ uri ∈ workspace.uris, ∀ diagnostics, workspace.diagnostics uri = .ok diagnostics →
    ∀ diagnostic ∈ diagnostics, diagnostic.severity ≠ .error

/-- Files of the folder are open, all text files that lie in the folder itself among them, and their
diagnostics are found. -/
structure Checked (folder : Folder) (files : List FoundFile) (workspace : Workspace)
    (pathOf : OrderedMap Text) (found : List (Text × Diagnostic)) : Prop where
  opened : Opened folder files workspace pathOf
  texts : ∀ name ∈ folder.files.keys, Folder.isText name = true → '/' ∉ name.toList → .plain name ∈ files
  tells : Tells workspace pathOf found

/-- A check passes just if no open document has an error, be all diagnostics listed or errors only. -/
theorem Checked.passed_iff {found : List (Text × Diagnostic)}
    (checked : Checked folder files workspace pathOf found) (path : Text) (count : Nat) (errorsOnly : Bool) :
    (ofDiagnostics path count found errorsOnly).passed = true ↔ Clean workspace := by
  have none : (ofDiagnostics path count found errorsOnly).passed = true ↔
      ∀ path diagnostic, (path, diagnostic) ∈ found → diagnostic.severity ≠ .error := by
    simp [ofDiagnostics]
  rw [none]
  constructor
  · intro absent uri known diagnostics given diagnostic among
    obtain ⟨file, -, -, noted, -⟩ := checked.opened.each uri known
    exact absent _ _ ((checked.tells _ _).2 ⟨uri, known, noted, diagnostics, given, among⟩)
  · intro clean path diagnostic member
    obtain ⟨uri, known, -, diagnostics, given, among⟩ := (checked.tells _ _).1 member
    exact clean uri known diagnostics given diagnostic among

/-- A folder is checked to the end, whatever files come first. -/
theorem indexed_passes (folder : Folder) (first : List FoundFile) (errorsOnly : Bool) :
    ∃ more workspace pathOf found, Checked folder (first ++ more) workspace pathOf found ∧
      indexed folder first errorsOnly =
        .ok (ofDiagnostics folder.path workspace.uris.length found errorsOnly) := by
  obtain ⟨started, noted, began, openedFirst⟩ := (opened_none folder).openFiles first
  rw [List.nil_append] at openedFirst
  let scenes := folder.sceneFiles first started.index.scenes
  let others := folder.otherFiles (first ++ scenes)
  obtain ⟨workspace, pathOf, ran, opened⟩ := openedFirst.openFiles (scenes ++ others)
  obtain ⟨found, collected, tells⟩ := opened.allDiagnostics
  refine ⟨scenes ++ others, workspace, pathOf, found, ⟨opened, ?_, tells⟩, ?_⟩
  · intro name present isText inside
    rw [← List.append_assoc]
    exact Folder.mem_otherFiles present isText inside _
  · simp only [indexed, began, Outcome.bind_ok]
    rw [ran]
    simp only [Outcome.bind_ok, collected, Outcome.pure_eq]

/-- A project is checked without a fault, whatever lies at its path. If there is a file to start with,
the check passes just if none of the documents that it opens has an error. -/
theorem project_passes (path : String) (files : Option (OrderedMap Text)) (errorsOnly : Bool) :
    ∃ outcome, project path files errorsOnly = .ok outcome ∧ ∀ listing, outcome = .ok listing →
      ∃ held opened workspace pathOf found, files = some held ∧
        Checked ⟨Path.plain path.toList, held⟩ opened workspace pathOf found ∧
        (listing.passed = true ↔ Clean workspace) := by
  cases files with
  | none => exact ⟨_, rfl, fun listing listed => by cases listed⟩
  | some held =>
      unfold project
      dsimp only
      split
      · exact ⟨_, rfl, fun listing listed => by cases listed⟩
      · obtain ⟨more, workspace, pathOf, found, checked, listed⟩ :=
          indexed_passes ⟨Path.plain path.toList, held⟩ _ errorsOnly
        rw [listed]
        refine ⟨_, rfl, fun listing same => ⟨held, _, workspace, pathOf, found, rfl, checked, ?_⟩⟩
        rw [← Except.ok.inj same]
        exact checked.passed_iff _ _ _

end Report

end ChoiceScript
