import ChoiceScript.Proofs.Rule.Passing
import ChoiceScript.Proofs.Uri.Sibling
import ChoiceScript.Proofs.Workspace.Coherence

/-! # Faulty documents are no fault

A document is read to its end wherever its address can be read, and every open document of a reached
workspace can be checked. The one address that a check puts together itself is that of a scene's
file, from the normal address of the startup file and a name of label characters.
-/

namespace ChoiceScript

/-- Labels hold no mark, no colon and no blank. -/
theorem Text.of_isLabel {c : Char} (ok : isLabel c = true) :
    Uri.isPlain c = true ∧ c ≠ ':' ∧ 0x20 < c.toNat := by
  by_cases ascii : c.toNat < 128
  · refine of_code (fun d => isLabel d = true → Uri.isPlain d = true ∧ d ≠ ':' ∧ 0x20 < d.toNat) ?_
      ascii ok
    decide +kernel
  · refine ⟨?_, ?_, by omega⟩
    · by_contra mark
      rcases Uri.eq_mark_of_not_isPlain mark with rfl | rfl | rfl <;> exact ascii (by decide)
    · rintro rfl
      exact ascii (by decide)

theorem Uri.isSimple_sceneFile {scene : String} (labels : ∀ c ∈ scene.toList, Text.isLabel c = true) :
    IsSimple (scene ++ ".txt").toList := by
  rw [String.toList_append]
  refine ⟨by simp, fun c member => ?_⟩
  rcases List.mem_append.1 member with inScene | inEnd
  · exact Text.of_isLabel (labels c inScene)
  · have ending : ∀ d ∈ ".txt".toList, Uri.isPlain d = true ∧ d ≠ ':' ∧ 0x20 < d.toNat := by
      simp [Uri.isPlain]
    exact ending c inEnd

namespace Parser

/-- A document whose address can be read is read to its end. -/
theorem whole_passes {source : Source} (readable : Uri.Readable source.document.uri) :
    (whole.run source).1 = .ok () := by
  obtain ⟨new, -, -, ends⟩ := truthful_whole source {}
  cases outcome : (whole.run source).1 with
  | ok value => rfl
  | error fault =>
      rw [run] at outcome
      rw [outcome] at ends
      obtain ⟨told, startup⟩ := readable.isStartup source.startupFile
      rw [Ends, startup] at ends
      cases ends

end Parser

namespace Workspace

variable {startupFile : String} {workspace : Workspace} {uri : String} {document : Document}

theorem Coherent.readable (coherent : workspace.Coherent)
    (open_ : workspace.documents.get? uri = some document) : Uri.Readable uri := by
  obtain ⟨address, indexes⟩ := coherent.documents uri document open_
  obtain ⟨isStartup, summary, reads⟩ := indexes.read
  exact address ▸ Uri.readable_of_isStartup reads.startup

/-- The file of a scene with a name of label characters can be found. -/
theorem Coherent.reachable (coherent : workspace.Coherent) (normal : workspace.Normal)
    {scene : String} (labels : ∀ c ∈ scene.toList, Text.isLabel c = true) :
    Rule.Reachable workspace.index scene := by
  unfold Rule.Reachable ProjectIndex.sceneUri?
  rcases coherent.tables with ownerless | ⟨owner, startup, open_, owned⟩
  · rw [ownerless.startupUri]
    exact ⟨none, rfl, by simp⟩
  · have address := (coherent.documents owner startup open_).1
    obtain ⟨given, normalized⟩ := normal owner startup open_
    obtain ⟨parts, read⟩ := coherent.readable open_
    obtain ⟨beside, again, found, readAgain⟩ :=
      Uri.exists_parse_sibling normalized read (Uri.isSimple_sceneFile labels)
    rw [owned.startupUri, address]
    refine ⟨some beside, ?_, ?_⟩
    · simp only [found]
      rfl
    · intro file same
      exact Option.some.inj same ▸ ⟨again, readAgain⟩

/-- The scenes that the jumps of an open document lead to can be found. -/
theorem Coherent.scenes (coherent : workspace.Coherent) (normal : workspace.Normal)
    (open_ : workspace.documents.get? uri = some document) :
    ∀ event ∈ (workspace.index.document document.uri).flowEvents,
      Rule.isComputed event.scene = false → Rule.Reachable workspace.index event.scene := by
  intro event member plain
  have truthful := (coherent.documents uri document open_).2.faithful.flowEvents event member
  refine coherent.reachable normal (truthful.sceneTarget.resolve_left ?_)
  simpa [Rule.isComputed] using plain

/-- Every open document can be checked. -/
theorem Coherent.check_passes (coherent : workspace.Coherent) (normal : workspace.Normal)
    (open_ : workspace.documents.get? uri = some document) :
    ∃ diagnostics, workspace.index.check document Rule.defaults = .ok diagnostics := by
  have readable : Uri.Readable (Inspection.of document workspace.index).document.uri := by
    change Uri.Readable document.uri
    rw [(coherent.documents uri document open_).1]
    exact coherent.readable open_
  obtain ⟨jumps, jumpsRun⟩ := Rule.jumps_ok readable (coherent.scenes normal open_)
  obtain ⟨uses, placed, marks, usesRun, placedRun, marksRun⟩ := Rule.others_ok readable
  exact ⟨_, ProjectIndex.check_eq jumpsRun usesRun placedRun marksRun⟩

end Workspace

/-- However faulty its text, a document is read to its end and checked. Reading fails only where the
address cannot be read, the brace of every reference is found, and in a reached workspace the rules
fail on no open document. -/
theorem faulty_documents_are_read_and_checked :
    (∀ source : Source, (∃ uri, Uri.parse source.document.uri.toList = .ok uri) →
      (Parser.whole.run source).1 = .ok ()) ∧
    (∀ (text : Text) (index : Int), ∀ token ∈ (Expression.ofText text index).tokens,
      token.kind = .reference → '{' ∈ token.text) ∧
    ∀ (startupFile : String) (workspace : Workspace) (uri : String) (document : Document),
      Workspace.Reached startupFile workspace →
      workspace.documents.get? uri = some document →
      ∃ diagnostics, workspace.index.check document Rule.defaults = .ok diagnostics := by
  refine ⟨fun source readable => Parser.whole_passes readable, ?_, ?_⟩
  · intro text index token member
    exact (Expression.standsIn_of_mem_tokens member).brace
  · intro startupFile workspace uri document reached open_
    exact reached.coherent.check_passes reached.normal open_

/-- A command with an unfinished expression and a jump without a target. -/
def unfinished : Text := "*set gold \x7b(1 + \n*goto_scene \n@\x7b".toList

/-- A workspace whose only document is unfinished. -/
def unfinishedWorkspace : Workspace :=
  (Workspace.ofStartupFile "startup.txt").run [.update "file:///game/a.txt" unfinished]

theorem unfinished_is_read_and_checked :
    (Parser.whole.run ⟨⟨"file:///game/a.txt", unfinished, 0⟩, "startup.txt"⟩).1 = .ok () ∧
    (∀ token ∈ (Expression.ofText "\x7b(1 + ".toList 0).tokens,
      token.kind = .reference ∧ '{' ∈ token.text) ∧
    ∃ diagnostics, unfinishedWorkspace.index.check ⟨"file:///game/a.txt", unfinished, 0⟩
      Rule.defaults = .ok diagnostics := by
  have readable : Uri.Readable "file:///game/a.txt" :=
    Uri.readable_of_isStartup
      (show Uri.isStartup "startup.txt" "file:///game/a.txt" = .ok false by decide +kernel)
  have reached : Workspace.Reached "startup.txt" unfinishedWorkspace :=
    Workspace.Reached.fresh.run (by decide +kernel)
  obtain ⟨reads, braces, checks⟩ := faulty_documents_are_read_and_checked
  refine ⟨reads _ readable, fun token member => ?_, ?_⟩
  · have reference : ∀ token ∈ (Expression.ofText "\x7b(1 + ".toList 0).tokens,
        token.kind = .reference := by
      decide +kernel
    exact ⟨reference token member, braces _ 0 token member (reference token member)⟩
  · exact checks "startup.txt" _ "file:///game/a.txt" _ reached (by decide +kernel)

end ChoiceScript
