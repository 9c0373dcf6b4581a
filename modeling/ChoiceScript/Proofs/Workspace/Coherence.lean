import ChoiceScript.Proofs.Workspace.Reached

/-! # Documents and index stay in step

In a reached workspace the index of every open document is what its text alone says, and the tables
of the project are either empty or what the current text of one open startup file says. An update of
any other file leaves the owner of the tables alone, because whether a document is the startup file
depends on its address only.
-/

namespace ChoiceScript

namespace ProjectIndex

/-- The index holds what the text of an open document says, all of it in that text. -/
structure Indexes (index : ProjectIndex) (document : Document) : Prop where
  read : ∃ isStartup summary,
    document.Reads index.startupFile isStartup summary (index.document document.uri)
  faithful : (index.document document.uri).Faithful document

/-- No startup file is known. -/
structure Ownerless (index : ProjectIndex) : Prop where
  startupUri : index.startupUri = none
  globalVariables : index.globalVariables = ∅
  scenes : index.scenes = []
  achievements : index.achievements = ∅

/-- The tables of the project are what the text of one startup file says, all of it in that text. -/
structure OwnedBy (index : ProjectIndex) (document : Document) : Prop where
  startupUri : index.startupUri = some document.uri
  read : ∃ summary documentIndex,
    document.Reads index.startupFile true summary documentIndex ∧
      index.globalVariables = summary.globalVariables ∧ index.scenes = summary.scenes ∧
      index.achievements = summary.achievements
  globalVariables : document.QuotesAll index.globalVariables
  achievements : document.QuotesAll index.achievements

end ProjectIndex

namespace Workspace

/-- Documents and index are in step. -/
structure Coherent (workspace : Workspace) : Prop where
  uris : workspace.uris = workspace.index.documents.keys
  documents : ∀ uri document, workspace.documents.get? uri = some document →
    document.uri = uri ∧ workspace.index.Indexes document
  tables : workspace.index.Ownerless ∨
    ∃ uri document, workspace.documents.get? uri = some document ∧
      workspace.index.OwnedBy document

variable {workspace after : Workspace} {stale : List String} {uri : String}

theorem coherent_fresh (startupFile : String) : (ofStartupFile startupFile).Coherent where
  uris := rfl
  documents _ _ found := by cases found
  tables := .inl ⟨rfl, rfl, rfl, rfl⟩

/-- What is known of a document stays known when the index answers for it as before. -/
theorem indexes_of_same {index other : ProjectIndex} {document : Document}
    (indexes : index.Indexes document) (file : other.startupFile = index.startupFile)
    (same : other.document document.uri = index.document document.uri) :
    other.Indexes document := by
  obtain ⟨isStartup, summary, reads⟩ := indexes.read
  exact ⟨⟨isStartup, summary, by rwa [file, same]⟩, by rw [same]; exact indexes.faithful⟩

section Update

variable {document : Document} {isStartup : Bool}

theorem Updated.startupFile (updated : Updated workspace after stale uri document isStartup) :
    after.index.startupFile = workspace.index.startupFile := by
  obtain ⟨summary, index, -, indexed⟩ := updated.reading
  rw [indexed, ProjectIndex.startupFile_afterReading]

/-- The document of an update is indexed anew. -/
theorem Updated.indexes (updated : Updated workspace after stale uri document isStartup) :
    after.index.Indexes document := by
  obtain ⟨summary, index, reads, indexed⟩ := updated.reading
  have answer : after.index.document document.uri = index := by
    rw [indexed, ProjectIndex.document_afterReading, if_pos updated.address]
  refine ⟨⟨isStartup, summary, ?_⟩, ?_⟩
  · rwa [updated.startupFile, answer]
  · rw [answer]
    exact reads.faithful

/-- Every other document stays indexed. -/
theorem Updated.indexes_other (updated : Updated workspace after stale uri document isStartup)
    {other : Document} (apart : other.uri ≠ uri) (indexes : workspace.index.Indexes other) :
    after.index.Indexes other := by
  obtain ⟨summary, index, -, indexed⟩ := updated.reading
  refine indexes_of_same indexes updated.startupFile ?_
  rw [indexed, ProjectIndex.document_afterReading, if_neg apart]

/-- An update of the startup file makes it the owner of the tables. -/
theorem Updated.owned (updated : Updated workspace after stale uri document true) :
    after.index.OwnedBy document := by
  obtain ⟨summary, index, reads, indexed⟩ := updated.reading
  rw [indexed]
  refine ⟨by rw [updated.address]; rfl, ⟨summary, index, ?_, rfl, rfl, rfl⟩, ?_, ?_⟩
  · rwa [ProjectIndex.startupFile_afterReading]
  · exact reads.summary_faithful.globalVariables
  · exact reads.summary_faithful.achievements

/-- An update of any other file leaves the tables alone. -/
theorem Updated.tables_same (updated : Updated workspace after stale uri document false) :
    (workspace.index.Ownerless → after.index.Ownerless) ∧
      ∀ owner, workspace.index.OwnedBy owner → after.index.OwnedBy owner := by
  obtain ⟨summary, index, -, indexed⟩ := updated.reading
  rw [indexed]
  constructor
  · intro ownerless
    exact ⟨ownerless.startupUri, ownerless.globalVariables, ownerless.scenes, ownerless.achievements⟩
  · intro owner owned
    exact ⟨owned.startupUri, owned.read, owned.globalVariables, owned.achievements⟩

theorem Coherent.update (coherent : workspace.Coherent)
    (updated : Updated workspace after stale uri document isStartup) : after.Coherent := by
  refine ⟨?_, ?_, ?_⟩
  · obtain ⟨summary, index, -, indexed⟩ := updated.reading
    have same := coherent.uris
    simp only [Workspace.uris] at same ⊢
    rw [updated.documents, indexed, ProjectIndex.documents_afterReading, OrderedMap.insert,
      OrderedMap.insert, OrderedMap.keys_alter, OrderedMap.keys_alter, same]
  · intro other open_ present
    rw [updated.get?_documents] at present
    split at present
    · rename_i same
      cases present
      exact ⟨updated.address.trans same.symm, updated.indexes⟩
    · rename_i apart
      obtain ⟨rfl, indexes⟩ := coherent.documents other open_ present
      exact ⟨rfl, updated.indexes_other apart indexes⟩
  · cases isStartup with
    | true => exact .inr ⟨uri, document, by rw [updated.get?_documents, if_pos rfl], updated.owned⟩
    | false =>
        rcases coherent.tables with ownerless | ⟨owner, startup, present, owned⟩
        · exact .inl (updated.tables_same.1 ownerless)
        -- the owner is a startup file by its address, so it is not the document that changed
        · have apart : owner ≠ uri := by
            rintro rfl
            obtain ⟨_, _, ownerReads, -⟩ := owned.read
            obtain ⟨_, _, reads, -⟩ := updated.reading
            have startupFile := ownerReads.startup
            rw [(coherent.documents owner startup present).1, ← updated.address,
              reads.startup] at startupFile
            cases startupFile
          refine .inr ⟨owner, startup, ?_, updated.tables_same.2 startup owned⟩
          rw [updated.get?_documents, if_neg apart, present]

end Update

/-- Closing another file than the owner of the tables leaves them alone. -/
theorem owned_remove {index : ProjectIndex} {document : Document} (owned : index.OwnedBy document)
    (apart : document.uri ≠ uri) : (index.remove uri).OwnedBy document := by
  have kept : ¬ index.startupUri = some uri := by
    rw [owned.startupUri, Option.some.injEq]
    exact apart
  unfold ProjectIndex.remove
  dsimp only
  rw [if_neg kept]
  exact ⟨owned.startupUri, owned.read, owned.globalVariables, owned.achievements⟩

/-- Closing the owner of the tables empties them. -/
theorem Coherent.tables_remove (coherent : workspace.Coherent) (uri : String) :
    (workspace.index.remove uri).Ownerless ∨
      ∃ owner document, owner ≠ uri ∧ workspace.documents.get? owner = some document ∧
        (workspace.index.remove uri).OwnedBy document := by
  rcases coherent.tables with ownerless | ⟨owner, document, open_, owned⟩
  · left
    unfold ProjectIndex.remove
    dsimp only
    rw [if_neg (by simp [ownerless.startupUri])]
    exact ⟨ownerless.startupUri, ownerless.globalVariables, ownerless.scenes, ownerless.achievements⟩
  · obtain ⟨rfl, -⟩ := coherent.documents owner document open_
    by_cases same : document.uri = uri
    · left
      unfold ProjectIndex.remove
      dsimp only
      rw [if_pos (by rw [owned.startupUri, same])]
      exact ⟨rfl, rfl, rfl, rfl⟩
    · exact .inr ⟨document.uri, document, same, open_, owned_remove owned same⟩

theorem Coherent.close (coherent : workspace.Coherent)
    (closed : Closed workspace uri after stale) : after.Coherent := by
  cases closed with
  | unknown absent => exact coherent
  | known present startup =>
      refine ⟨?_, ?_, ?_⟩
      · have same := coherent.uris
        simp only [Workspace.uris] at same ⊢
        rw [ProjectIndex.documents_remove, OrderedMap.keys_erase, OrderedMap.keys_erase, same]
      · intro other document kept
        simp only [OrderedMap.get?_erase] at kept
        split at kept
        · cases kept
        · rename_i apart
          obtain ⟨rfl, indexes⟩ := coherent.documents other document kept
          refine ⟨rfl, indexes_of_same indexes (ProjectIndex.startupFile_remove _ _) ?_⟩
          exact ProjectIndex.document_remove apart
      · rcases coherent.tables_remove uri with ownerless | ⟨owner, document, apart, open_, owned⟩
        · exact .inl ownerless
        · refine .inr ⟨owner, document, ?_, owned⟩
          simp only [OrderedMap.get?_erase, apart, if_false, open_]

theorem Reached.coherent {startupFile : String} (reached : Reached startupFile workspace) :
    workspace.Coherent :=
  reached.invariant (coherent_fresh startupFile) (fun coherent _ updated => coherent.update updated)
    fun coherent closed => coherent.close closed

/-- After calls that all pass the index holds what the last texts of the open documents say and
nothing else. -/
theorem index_follows_documents {startupFile : String} {requests : List Call}
    (passed : (ofStartupFile startupFile).passes requests = true)
    (ran : (ofStartupFile startupFile).run requests = workspace) :
    workspace.index.startupFile = startupFile ∧
    workspace.uris = workspace.index.documents.keys ∧
    (∀ uri document, workspace.documents.get? uri = some document →
      document.uri = uri ∧ lastText requests uri = some document.text ∧
        workspace.index.Indexes document) ∧
    (workspace.index.Ownerless ∨
      ∃ uri document, workspace.documents.get? uri = some document ∧
        workspace.index.OwnedBy document) := by
  have reached : Reached startupFile workspace := ran ▸ Reached.fresh.run passed
  refine ⟨reached.names, reached.coherent.uris, ?_, reached.coherent.tables⟩
  intro uri document open_
  obtain ⟨address, indexes⟩ := reached.coherent.documents uri document open_
  have last := text?_run passed uri
  rw [ran, text?, open_] at last
  exact ⟨address, last.symm, indexes⟩

/-- Two startup files are opened, the first changes, and the second is closed. -/
def switching : List Call :=
  [.update "file:///a/startup.txt" "*create gold 1".toList,
    .update "file:///b/startup.txt" "*create silver 2".toList,
    .update "file:///a/startup.txt" "*scene_list\n  b".toList,
    .close "file:///b/startup.txt"]

theorem index_follows_switching :
    (ofStartupFile "startup.txt").passes switching = true ∧
    ((ofStartupFile "startup.txt").run switching).index.scenes = ["b"] ∧
    ∃ uri document,
      ((ofStartupFile "startup.txt").run switching).documents.get? uri = some document ∧
        ((ofStartupFile "startup.txt").run switching).index.OwnedBy document := by
  obtain ⟨passed, listed⟩ : (ofStartupFile "startup.txt").passes switching = true ∧
      ((ofStartupFile "startup.txt").run switching).index.scenes = ["b"] := by
    decide +kernel
  refine ⟨passed, listed, ?_⟩
  obtain ⟨-, -, -, ownerless | owned⟩ := index_follows_documents passed rfl
  · rw [ownerless.scenes] at listed
    cases listed
  · exact owned

end Workspace

end ChoiceScript
