import ChoiceScript.Proofs.Workspace.Checking

/-! # What a failing request leaves behind

A request fails where an address cannot be read: the given one, or its normal form, whose path may
read as an authority. An update has put its text in place by the time that the normal form is read,
and a close has taken the document away, so documents and index are out of step from then on. The
index itself never changes, for it knows readable addresses only.
-/

namespace ChoiceScript

namespace OrderedMap

variable {α : Type} {map : OrderedMap α} {key : String}

/-- To take out a name that is not there changes nothing. -/
theorem erase_of_not_mem (absent : key ∉ map.keys) : map.erase key = map := by
  obtain ⟨entries, nodup⟩ := map
  simp only [erase, mk.injEq, List.filter_eq_self, decide_eq_true_eq]
  rintro entry member rfl
  exact absent (List.mem_map_of_mem member)

/-- To give a value to a name that has one adds no name. -/
theorem keys_insert_of_mem (present : key ∈ map.keys) (value : α) :
    (map.insert key value).keys = map.keys := by
  rw [insert, keys_alter, if_pos present]

end OrderedMap

namespace ProjectIndex

variable {index : ProjectIndex} {document : Document} {uri : String}

/-- A document whose address can be read is indexed, whatever its text. -/
theorem indexDocument_passes (index : ProjectIndex) (startupFile : String)
    (readable : Uri.Readable document.uri) :
    ∃ indexed, index.indexDocument document startupFile = .ok indexed := by
  obtain ⟨isStartup, startup⟩ := readable.isStartup startupFile
  have passed : (Parser.whole.run ⟨document, startupFile⟩).1 = .ok () := Parser.whole_passes readable
  obtain ⟨reports, reported⟩ : ∃ reports, Source.reports ⟨document, startupFile⟩ = .ok reports := by
    unfold Source.reports
    split
    · exact ⟨_, rfl⟩
    · rename_i ran
      rw [ran] at passed
      cases passed
  have faithful : (Summary.ofReports isStartup reports).Faithful document :=
    Summary.ofReports_faithful (Source.reports_truthful reported)
  obtain ⟨made, summed, -⟩ := faithful.documentIndex
  simp only [indexDocument, update, startup, reported, summed, Outcome.bind_ok, Outcome.pure_eq]
  cases isStartup with
  | true => exact ⟨_, rfl⟩
  | false => exact ⟨_, rfl⟩

/-- An index knows readable addresses only. -/
structure Readable (index : ProjectIndex) : Prop where
  documents : ∀ uri ∈ index.documents.keys, Uri.Readable uri
  startup : ∀ uri ∈ index.startupUri, Uri.Readable uri

theorem Readable.afterReading (readable : index.Readable) (address : Uri.Readable uri)
    (isStartup : Bool) (summary : Summary) (document : DocumentIndex) :
    (index.afterReading uri isStartup summary document).Readable := by
  constructor
  · intro other member
    rw [documents_afterReading] at member
    rcases OrderedMap.mem_keys_insert.1 member with rfl | known
    · exact address
    · exact readable.documents other known
  · cases isStartup with
    | true =>
        intro other same
        exact Option.some.inj same ▸ address
    | false => exact readable.startup

theorem Readable.remove (readable : index.Readable) (uri : String) : (index.remove uri).Readable := by
  constructor
  · intro other member
    rw [documents_remove, OrderedMap.keys_erase] at member
    exact readable.documents other (List.mem_of_mem_filter member)
  · unfold ProjectIndex.remove
    dsimp only
    split
    · simp
    · exact readable.startup

/-- To forget a document that cannot be known changes nothing. -/
theorem Readable.remove_eq (readable : index.Readable) (unreadable : ¬ Uri.Readable uri) :
    index.remove uri = index := by
  have unknown : uri ∉ index.documents.keys := fun member => unreadable (readable.documents uri member)
  have other : index.startupUri ≠ some uri := fun same => unreadable (readable.startup uri same)
  simp only [ProjectIndex.remove, other, if_false, OrderedMap.erase_of_not_mem unknown]

end ProjectIndex

namespace Workspace

/-- The address that a call is about, as it is given. -/
def Call.address : Call → String
  | .update address _ => address
  | .close address => address

/-- What a failing call leaves. -/
inductive Failed (workspace : Workspace) : Call → Workspace → Prop where
  /-- The given address cannot be read. -/
  | unread {request : Call} (none : ∀ uri, Uri.normalize request.address ≠ .ok uri) :
    Failed workspace request workspace
  /-- The document of an update is there and has no index. -/
  | opened {address uri : String} {text : Text} (normal : Uri.normalize address = .ok uri)
    (unreadable : ¬ Uri.Readable uri) :
    Failed workspace (.update address text) ⟨workspace.index,
      workspace.documents.insert uri ⟨uri, text, nextVersion (workspace.documents.get? uri)⟩⟩
  /-- The document of a close is gone. -/
  | closed {address uri : String} (normal : Uri.normalize address = .ok uri)
    (unreadable : ¬ Uri.Readable uri) (present : workspace.documents.contains uri = true) :
    Failed workspace (.close address) ⟨workspace.index.remove uri, workspace.documents.erase uri⟩

variable {workspace after : Workspace} {fault : Fault} {address startupFile : String} {text : Text}

theorem update_eq_error (failed : (workspace.update address text).1 = .error fault) :
    Failed workspace (.update address text) (workspace.update address text).2 := by
  unfold update at failed ⊢
  cases normal : Uri.normalize address with
  | error unreadable => exact .unread (by simp [Call.address, normal])
  | ok uri =>
      simp only [normal] at failed ⊢
      split at failed
      · rename_i unread
        apply Failed.opened normal
        intro readable
        let document : Document := ⟨uri, text, nextVersion (workspace.documents.get? uri)⟩
        have address : Uri.Readable document.uri := readable
        obtain ⟨indexed, passed⟩ :=
          ProjectIndex.indexDocument_passes workspace.index workspace.index.startupFile address
        cases passed.symm.trans unread
      · cases failed

/-- A text can be opened by an address with a normal form that can be read. -/
theorem update_passes {uri : String} (normal : Uri.normalize address = .ok uri) (readable : Uri.Readable uri)
    (text : Text) : ∃ stale, (workspace.update address text).1 = .ok stale := by
  cases outcome : (workspace.update address text).1 with
  | ok stale => exact ⟨stale, rfl⟩
  | error fault =>
      have failed := update_eq_error outcome
      generalize (workspace.update address text).2 = after at failed
      cases failed with
      | unread none => exact absurd normal (none uri)
      | opened other unreadable =>
          obtain rfl := Except.ok.inj (normal.symm.trans other)
          exact absurd readable unreadable

theorem close_eq_error (failed : (workspace.close address).1 = .error fault) :
    Failed workspace (.close address) (workspace.close address).2 := by
  unfold close at failed ⊢
  cases normal : Uri.normalize address with
  | error unreadable => exact .unread (by simp [Call.address, normal])
  | ok uri =>
      simp only [normal] at failed ⊢
      cases present : workspace.documents.contains uri with
      | false => simp only [present, Bool.false_eq_true, if_false, reduceCtorEq] at failed
      | true =>
          simp only [present, if_true] at failed ⊢
          split at failed
          · rename_i unread
            have unreadable : ¬ Uri.Readable uri := by
              intro readable
              obtain ⟨told, startup⟩ := readable.isStartup (workspace.index.remove uri).startupFile
              rw [ProjectIndex.isStartup, startup] at unread
              cases unread
            exact .closed normal unreadable present
          · cases failed

theorem call_eq_error {request : Call} (failed : (workspace.call request).1 = .error fault) :
    Failed workspace request (workspace.call request).2 := by
  cases request with
  | update address text => exact update_eq_error failed
  | close address => exact close_eq_error failed

/-- What is asked of a workspace: to change, or for the diagnostics of a document. -/
inductive Request where
  | call (call : Call)
  | diagnostics (uri : String)
  deriving DecidableEq

/-- What a request gives. -/
inductive Answer where
  | stale (uris : List String)
  | diagnostics (found : List Diagnostic)
  deriving DecidableEq

/-- Answer a request. -/
def serve (workspace : Workspace) : Request → Except Fault Answer × Workspace
  | .call call => ((workspace.call call).1.map .stale, (workspace.call call).2)
  | .diagnostics uri => ((workspace.diagnostics uri).map .diagnostics, workspace)

/-- A workspace that requests lead to from one without documents, whether they pass or fail. -/
inductive Visited (startupFile : String) : Workspace → Prop where
  | fresh : Visited startupFile (ofStartupFile startupFile)
  | step {workspace : Workspace} (request : Request) (before : Visited startupFile workspace) :
    Visited startupFile (workspace.serve request).2

theorem readable_call (readable : workspace.index.Readable) (request : Call) :
    (workspace.call request).2.index.Readable := by
  cases outcome : (workspace.call request).1 with
  | error fault =>
      have failed := call_eq_error outcome
      generalize (workspace.call request).2 = after at failed
      cases failed with
      | unread => exact readable
      | opened => exact readable
      | closed => exact readable.remove _
  | ok stale =>
      cases request with
      | update address text =>
          obtain ⟨uri, document, isStartup, -, -, updated⟩ := update_eq_ok outcome
          obtain ⟨summary, index, reads, indexed⟩ := updated.reading
          have read := updated.address ▸ Uri.readable_of_isStartup reads.startup
          rw [call, indexed]
          exact readable.afterReading read isStartup summary index
      | close address =>
          obtain ⟨uri, -, closed⟩ := close_eq_ok outcome
          rw [call]
          generalize (workspace.close address).2 = after at closed
          cases closed with
          | unknown => exact readable
          | known => exact readable.remove uri

theorem Visited.readable (visited : Visited startupFile workspace) : workspace.index.Readable := by
  induction visited with
  | fresh => exact ⟨by simp [ofStartupFile, OrderedMap.keys, EmptyCollection.emptyCollection,
      OrderedMap.empty], by simp [ofStartupFile]⟩
  | step request before ih =>
      cases request with
      | call call => exact readable_call ih call
      | diagnostics uri => exact ih

/-- The documents, with their texts, and the index are as before. -/
structure Intact (workspace after : Workspace) : Prop where
  uris : after.uris = workspace.uris
  texts : ∀ uri, after.text? uri = workspace.text? uri
  index : after.index = workspace.index

theorem Intact.refl (workspace : Workspace) : Intact workspace workspace := ⟨rfl, fun _ => rfl, rfl⟩

/-- A request that does no harm even if it fails: its address has no normal form, it gives a document
the text that this has, or it asks for diagnostics only. -/
def Request.Harmless (workspace : Workspace) : Request → Prop
  | .call (.update address text) =>
    ∀ uri, Uri.normalize address = .ok uri → workspace.text? uri = some text
  | .call (.close address) => ∀ uri, Uri.normalize address ≠ .ok uri
  | .diagnostics _ => True

theorem intact_update_iff {uri : String} (document : Document) :
    Intact workspace ⟨workspace.index, workspace.documents.insert uri document⟩ ↔
      workspace.text? uri = some document.text := by
  constructor
  · intro intact
    have same := intact.texts uri
    simpa only [text?, OrderedMap.get?_insert, if_true, Option.map_some] using same.symm
  · intro kept
    have present : uri ∈ workspace.documents.keys := by
      obtain ⟨open_, found, -⟩ := Option.map_eq_some_iff.1 kept
      exact OrderedMap.contains_iff.1 (by simp [OrderedMap.contains, found])
    refine ⟨OrderedMap.keys_insert_of_mem present document, fun other => ?_, rfl⟩
    simp only [text?, OrderedMap.get?_insert]
    split
    · rename_i same
      exact same ▸ kept.symm
    · rfl

/-- A failing request leaves the index alone, and the documents and their texts just when it does no
harm. -/
theorem failed_request_intact_iff {request : Request} (visited : Visited startupFile workspace)
    (failed : (workspace.serve request).1 = .error fault) :
    (workspace.serve request).2.index = workspace.index ∧
      (Intact workspace (workspace.serve request).2 ↔ request.Harmless workspace) := by
  cases request with
  | diagnostics uri => exact ⟨rfl, by simp only [Request.Harmless, serve, Intact.refl]⟩
  | call request =>
      have cause : (workspace.call request).1 = .error fault := by
        cases outcome : (workspace.call request).1 with
        | error other => simpa [serve, outcome, Except.map] using failed
        | ok stale => simp [serve, outcome, Except.map] at failed
      have left := call_eq_error cause
      simp only [serve]
      generalize (workspace.call request).2 = after at left
      cases left with
      | unread none =>
          refine ⟨rfl, iff_of_true (.refl workspace) ?_⟩
          cases request with
          | update address text => exact fun uri normal => absurd normal (none uri)
          | close address => exact none
      | opened normal unreadable =>
          refine ⟨rfl, (intact_update_iff _).trans ?_⟩
          simp only [Request.Harmless, normal, Except.ok.injEq, forall_eq']
      | @closed address uri normal unreadable present =>
          refine ⟨visited.readable.remove_eq unreadable, iff_of_false (fun intact => ?_) ?_⟩
          · obtain ⟨open_, found⟩ := Option.isSome_iff_exists.1 present
            have gone := intact.texts uri
            simp [text?, OrderedMap.get?_erase, found] at gone
          · exact fun none => none uri normal

/-- A request to open an empty document. Its address has a normal form that cannot be read: two slashes
are left at the front of the path, and what follows them, a bracket without a partner, reads as an
authority. -/
def openBracket : Request := .call (.update "file:////[" [])

/-- The document is open, and the request has failed. -/
def bracketOpened : Workspace := ((ofStartupFile "startup.txt").serve openBracket).2

/-- To open the document once more fails too, and now leaves all as before. -/
theorem reopened_bracket_intact :
    (bracketOpened.serve openBracket).1 = .error .misplacedBracket ∧
      Intact bracketOpened (bracketOpened.serve openBracket).2 := by
  have visited : Visited "startup.txt" bracketOpened := .step openBracket .fresh
  obtain ⟨failed, normal, text⟩ :
      (bracketOpened.serve openBracket).1 = .error .misplacedBracket ∧
      Uri.normalize "file:////[" = .ok "file://[" ∧ bracketOpened.text? "file://[" = some [] := by
    decide +kernel
  have harmless : openBracket.Harmless bracketOpened := by
    intro uri same
    obtain rfl := Except.ok.inj (normal.symm.trans same)
    exact text
  exact ⟨failed, (failed_request_intact_iff visited failed).2.2 harmless⟩

/-- The first time, the document is open though the request fails. -/
theorem failed_update_leaves_document :
    ¬ ∀ (startupFile : String) (workspace : Workspace) (request : Request) (fault : Fault),
      Visited startupFile workspace → (workspace.serve request).1 = .error fault →
      Intact workspace (workspace.serve request).2 := by
  intro atomic
  obtain ⟨failed, left⟩ :
      ((ofStartupFile "startup.txt").serve openBracket).1 = .error .misplacedBracket ∧
      bracketOpened.uris ≠ (ofStartupFile "startup.txt").uris := by
    decide +kernel
  exact left (atomic _ _ _ _ .fresh failed).uris

end Workspace

end ChoiceScript
