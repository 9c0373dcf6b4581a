import ChoiceScript.Proofs.Rule.Dependence
import ChoiceScript.Proofs.Workspace.Checking

/-! # Diagnostics after a call

A call returns the addresses whose diagnostics it takes for changed. A document that it leaves out is
another one than that of the call, and the tables of the project are as before. Its diagnostics are
as before too, unless one of its jumps asks for a label in the file of the call that the call brings
or takes away.
-/

namespace ChoiceScript.Workspace

open Rule

variable {startupFile : String} {workspace after : Workspace} {request : Call} {stale : List String}
  {uri changed address : String} {document : Document}

/-- One document may have changed, but not a given one and not the tables of the project. -/
structure Spares (workspace after : Workspace) (uri changed : String) : Prop where
  apart : uri ≠ changed
  document : after.documents.get? uri = workspace.documents.get? uri
  index : workspace.index.SameBut after.index changed

theorem Updated.spares {isStartup : Bool}
    (updated : Updated workspace after stale changed document isStartup)
    (kept : after.documents.contains uri = true) (left : uri ∉ stale) :
    Spares workspace after uri changed := by
  obtain ⟨summary, index, -, indexed⟩ := updated.reading
  rw [updated.stale] at left
  cases isStartup with
  | true => exact absurd (OrderedMap.contains_iff.1 kept) left
  | false =>
      have apart : uri ≠ changed := by simpa using left
      refine ⟨apart, ?_, ?_⟩
      · rw [updated.documents, OrderedMap.get?_insert, if_neg apart]
      · rw [indexed]
        exact ProjectIndex.sameBut_afterReading _ _ _ _

/-- The file that owns the tables is a startup file. -/
theorem Coherent.startupUri_ne (coherent : workspace.Coherent)
    (plain : workspace.index.isStartup uri = .ok false) : workspace.index.startupUri ≠ some uri := by
  intro owns
  rcases coherent.tables with ownerless | ⟨owner, startup, -, owned⟩
  · rw [ownerless.startupUri] at owns
    cases owns
  · obtain ⟨_, _, reads, -⟩ := owned.read
    rw [owned.startupUri, Option.some.injEq] at owns
    rw [ProjectIndex.isStartup, ← owns, reads.startup] at plain
    cases plain

theorem Closed.spares (coherent : workspace.Coherent) (closed : Closed workspace changed after stale)
    (present : workspace.documents.contains uri = true)
    (kept : after.documents.contains uri = true) (left : uri ∉ stale) :
    Spares workspace after uri changed := by
  cases closed with
  | unknown absent =>
      have apart : uri ≠ changed := by
        rintro rfl
        rw [absent] at present
        cases present
      exact ⟨apart, rfl, ProjectIndex.sameBut_refl _ _⟩
  | @known isStartup _ startup =>
      cases isStartup with
      | true => exact absurd (OrderedMap.contains_iff.1 kept) left
      | false =>
          have apart : uri ≠ changed := by
            rintro rfl
            simp [OrderedMap.contains, OrderedMap.get?_erase] at kept
          refine ⟨apart, ?_, ?_⟩
          · simp only [OrderedMap.get?_erase, apart, if_false]
          · exact ProjectIndex.sameBut_remove (coherent.startupUri_ne startup)

/-- A call spares every document that is open before and after it and that it does not return. -/
theorem Coherent.call_spares (coherent : workspace.Coherent)
    (passed : (workspace.call request).1 = .ok stale)
    (present : workspace.documents.contains uri = true)
    (kept : (workspace.call request).2.documents.contains uri = true) (left : uri ∉ stale) :
    ∃ changed, Spares workspace (workspace.call request).2 uri changed := by
  cases request with
  | update given text =>
      obtain ⟨changed, read, isStartup, -, -, updated⟩ := update_eq_ok passed
      exact ⟨changed, updated.spares kept left⟩
  | close given =>
      obtain ⟨changed, -, closed⟩ := close_eq_ok passed
      exact ⟨changed, closed.spares coherent present kept left⟩

/-- The diagnostics asked for are those of the open document. -/
theorem diagnostics_eq_check (normal : Uri.normalize address = .ok uri)
    (open_ : workspace.documents.get? uri = some document) :
    workspace.diagnostics address = workspace.index.check document Rule.defaults := by
  simp only [diagnostics, normal, Outcome.bind_ok, open_]

/-- The jumps of an open document can be judged. -/
theorem Coherent.judged (coherent : workspace.Coherent) (normal : workspace.Normal)
    (open_ : workspace.documents.get? uri = some document) :
    ∀ event ∈ (workspace.index.document document.uri).flowEvents,
      Judged (.of document workspace.index) event := by
  intro event member
  have own : Uri.Readable (Inspection.of document workspace.index).document.uri := by
    change Uri.Readable document.uri
    rw [(coherent.documents uri document open_).1]
    exact coherent.readable open_
  exact jumpDiagnostics_ok own (coherent.scenes normal open_ event member)

/-- A call that leaves a document out of what it returns leaves the diagnostics of the document alone
just when each label that its jumps ask for stands in its file before and after, or neither. -/
theorem diagnostics_same_iff (reached : Reached startupFile workspace)
    (passed : (workspace.call request).1 = .ok stale)
    (normal : Uri.normalize address = .ok uri) (present : workspace.documents.contains uri = true)
    (kept : (workspace.call request).2.documents.contains uri = true) (left : uri ∉ stale) :
    (workspace.call request).2.diagnostics address = workspace.diagnostics address ↔
      ∀ event ∈ (workspace.index.document uri).flowEvents, ∀ file,
        Asks workspace.index event file →
          labelStands (workspace.call request).2.index event file =
            labelStands workspace.index event file := by
  have reachedAfter := Reached.step request reached passed
  obtain ⟨changed, spares⟩ := reached.coherent.call_spares passed present kept left
  obtain ⟨document, open_⟩ := Option.isSome_iff_exists.1 present
  have openAfter := spares.document.trans open_
  obtain ⟨rfl, indexes⟩ := reached.coherent.documents uri document open_
  rw [diagnostics_eq_check normal open_, diagnostics_eq_check normal openAfter]
  have judgedAfter := reachedAfter.coherent.judged reachedAfter.normal openAfter
  rw [spares.index.document document.uri spares.apart] at judgedAfter
  exact ProjectIndex.check_same_iff spares.index spares.apart (reached.coherent.readable open_)
    indexes.faithful (reached.coherent.judged reached.normal open_) judgedAfter

/-- A startup file that lists one scene, the scene with one label, and a file that jumps there. -/
def linked : Workspace :=
  (ofStartupFile "startup.txt").run
    [.update "file:///game/startup.txt" "*scene_list\n  b\n".toList,
      .update "file:///game/b.txt" "*label foo\n".toList,
      .update "file:///game/a.txt" "*goto_scene b foo\n".toList]

theorem reached_linked : Reached "startup.txt" linked := Reached.fresh.run (by decide +kernel)

/-- The label moves down by a line. -/
def labelMoved : Call := .update "file:///game/b.txt" "\n*label foo".toList

/-- The label goes. -/
def labelGone : Call := .update "file:///game/b.txt" []

theorem diagnostics_same_linked :
    "file:///game/a.txt" ∉ ["file:///game/b.txt"] ∧
    ∀ event ∈ (linked.index.document "file:///game/a.txt").flowEvents, ∀ file,
      Asks linked.index event file →
        labelStands (linked.call labelMoved).2.index event file =
          labelStands linked.index event file := by
  have left : "file:///game/a.txt" ∉ ["file:///game/b.txt"] := by decide
  obtain ⟨normal, passed, present, kept, same⟩ :
      Uri.normalize "file:///game/a.txt" = .ok "file:///game/a.txt" ∧
      (linked.call labelMoved).1 = .ok ["file:///game/b.txt"] ∧
      linked.documents.contains "file:///game/a.txt" = true ∧
      (linked.call labelMoved).2.documents.contains "file:///game/a.txt" = true ∧
      (linked.call labelMoved).2.diagnostics "file:///game/a.txt" =
        linked.diagnostics "file:///game/a.txt" := by
    decide +kernel
  exact ⟨left, (diagnostics_same_iff reached_linked passed normal present kept left).1 same⟩

/-- When the label goes, the file that jumps there gets a diagnostic and is not returned. -/
theorem stale_leaves_out_a_jump :
    ¬ ∀ (startupFile : String) (workspace : Workspace) (request : Call) (stale : List String)
      (address uri : String), Reached startupFile workspace →
      (workspace.call request).1 = .ok stale → Uri.normalize address = .ok uri →
      workspace.documents.contains uri = true →
      (workspace.call request).2.documents.contains uri = true → uri ∉ stale →
      (workspace.call request).2.diagnostics address = workspace.diagnostics address := by
  intro sound
  obtain ⟨normal, passed, present, kept, differ⟩ :
      Uri.normalize "file:///game/a.txt" = .ok "file:///game/a.txt" ∧
      (linked.call labelGone).1 = .ok ["file:///game/b.txt"] ∧
      linked.documents.contains "file:///game/a.txt" = true ∧
      (linked.call labelGone).2.documents.contains "file:///game/a.txt" = true ∧
      (linked.call labelGone).2.diagnostics "file:///game/a.txt" ≠
        linked.diagnostics "file:///game/a.txt" := by
    decide +kernel
  have left : "file:///game/a.txt" ∉ ["file:///game/b.txt"] := by decide
  exact differ (sound _ _ _ _ _ _ reached_linked passed normal present kept left)

end ChoiceScript.Workspace
