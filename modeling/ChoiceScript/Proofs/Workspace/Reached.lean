import ChoiceScript.Proofs.Index.Reading
import ChoiceScript.Workspace

/-! # Reachable workspaces

A workspace changes by calls that open, change or close a document. It is reached when every call
before it has passed. What a passing call does is said once for each kind of call, and so the text of
an open document is the one that its address was given last.
-/

namespace ChoiceScript.Workspace

/-- A request that changes a workspace. -/
inductive Call where
  | update (uri : String) (text : Text)
  | close (uri : String)
  deriving DecidableEq

/-- Do what is requested. -/
def call (workspace : Workspace) : Call → Except Fault (List String) × Workspace
  | .update uri text => workspace.update uri text
  | .close uri => workspace.close uri

/-- A workspace that passing calls lead to from one without documents. -/
inductive Reached (startupFile : String) : Workspace → Prop where
  | fresh : Reached startupFile (ofStartupFile startupFile)
  | step {workspace : Workspace} {stale : List String} (request : Call)
    (before : Reached startupFile workspace) (passed : (workspace.call request).1 = .ok stale) :
    Reached startupFile (workspace.call request).2

/-- Do one request after another. -/
def run (workspace : Workspace) (requests : List Call) : Workspace :=
  requests.foldl (fun before request => (before.call request).2) workspace

/-- Do all requests pass, one after another? -/
def passes (workspace : Workspace) : List Call → Bool
  | [] => true
  | request :: rest =>
    match workspace.call request with
    | (.ok _, after) => after.passes rest
    | (.error _, _) => false

theorem passes_cons {workspace : Workspace} {request : Call} {rest : List Call} :
    workspace.passes (request :: rest) = true ↔
      ∃ stale, (workspace.call request).1 = .ok stale ∧
        (workspace.call request).2.passes rest = true := by
  rw [passes]
  cases done : workspace.call request with
  | mk outcome after =>
      cases outcome with
      | ok stale => simp
      | error fault => simp

/-- What holds at first and is kept by every passing call of a run holds at its end. -/
theorem run_induction {holds : Workspace → Prop} {workspace : Workspace} {requests : List Call}
    (passed : workspace.passes requests = true) (start : holds workspace)
    (step : ∀ request ∈ requests, ∀ before stale, holds before →
      (before.call request).1 = .ok stale → holds (before.call request).2) :
    holds (workspace.run requests) := by
  induction requests generalizing workspace with
  | nil => exact start
  | cons request rest ih =>
      obtain ⟨stale, done, passedRest⟩ := passes_cons.1 passed
      have next := step request (by simp) workspace stale start done
      exact ih passedRest next fun other member => step other (by simp [member])

theorem Reached.run {startupFile : String} {workspace : Workspace} {requests : List Call}
    (reached : Reached startupFile workspace) (passed : workspace.passes requests = true) :
    Reached startupFile (workspace.run requests) :=
  run_induction passed reached fun request _ _ _ before done => .step request before done

/-- What a passing update leaves: the document is open and its reading is in the index. -/
structure Updated (workspace after : Workspace) (stale : List String) (uri : String)
    (document : Document) (isStartup : Bool) : Prop where
  address : document.uri = uri
  documents : after.documents = workspace.documents.insert uri document
  reading : ∃ summary index,
    document.Reads workspace.index.startupFile isStartup summary index ∧
      after.index = workspace.index.afterReading uri isStartup summary index
  stale : stale = if isStartup then after.uris else [uri]

theorem update_eq_ok {workspace : Workspace} {address : String} {text : Text} {stale : List String}
    (passed : (workspace.update address text).1 = .ok stale) :
    ∃ uri document isStartup, Uri.normalize address = .ok uri ∧ document.text = text ∧
      Updated workspace (workspace.update address text).2 stale uri document isStartup := by
  unfold update at passed ⊢
  cases normal : Uri.normalize address with
  | error fault => simp only [normal, reduceCtorEq] at passed
  | ok uri =>
      simp only [normal] at passed ⊢
      split at passed
      · cases passed
      · rename_i indexed done
        obtain ⟨summary, reads, project⟩ := ProjectIndex.indexDocument_eq_ok done
        exact ⟨uri, _, indexed.isStartup, rfl, rfl, rfl, rfl, ⟨summary, _, reads, project⟩,
          (Except.ok.inj passed).symm⟩

/-- What a passing close leaves: the document is gone, if there was one. -/
inductive Closed (workspace : Workspace) (uri : String) : Workspace → List String → Prop where
  | unknown (absent : workspace.documents.contains uri = false) :
    Closed workspace uri workspace []
  | known {isStartup : Bool} (present : workspace.documents.contains uri = true)
    (startup : workspace.index.isStartup uri = .ok isStartup) :
    Closed workspace uri ⟨workspace.index.remove uri, workspace.documents.erase uri⟩
      (if isStartup then (workspace.documents.erase uri).keys else [])

theorem close_eq_ok {workspace : Workspace} {address : String} {stale : List String}
    (passed : (workspace.close address).1 = .ok stale) :
    ∃ uri, Uri.normalize address = .ok uri ∧
      Closed workspace uri (workspace.close address).2 stale := by
  unfold close at passed ⊢
  cases normal : Uri.normalize address with
  | error fault => simp only [normal, reduceCtorEq] at passed
  | ok uri =>
      refine ⟨uri, rfl, ?_⟩
      simp only [normal] at passed ⊢
      cases present : workspace.documents.contains uri with
      | false =>
          simp only [present, Bool.false_eq_true, if_false, Except.ok.injEq] at passed ⊢
          exact passed ▸ .unknown present
      | true =>
          simp only [present, if_true, ProjectIndex.isStartup,
            ProjectIndex.startupFile_remove] at passed ⊢
          cases startup : Uri.isStartup workspace.index.startupFile uri with
          | error fault => simp only [startup, reduceCtorEq] at passed
          | ok isStartup =>
              simp only [startup, Except.ok.injEq] at passed ⊢
              exact passed ▸ .known present startup

/-- What holds at first and is kept by updates and closes holds of every reached workspace. -/
theorem Reached.invariant {startupFile : String} {holds : Workspace → Prop}
    (fresh : holds (ofStartupFile startupFile))
    (update : ∀ {workspace after stale address uri document isStartup}, holds workspace →
      Uri.normalize address = .ok uri → Updated workspace after stale uri document isStartup →
      holds after)
    (close : ∀ {workspace after stale uri}, holds workspace → Closed workspace uri after stale →
      holds after) {workspace : Workspace} (reached : Reached startupFile workspace) :
    holds workspace := by
  induction reached with
  | fresh => exact fresh
  | step request before passed ih =>
      cases request with
      | update address text =>
          obtain ⟨uri, document, isStartup, normal, -, updated⟩ := update_eq_ok passed
          exact update ih normal updated
      | close address =>
          obtain ⟨uri, -, closed⟩ := close_eq_ok passed
          exact close ih closed

/-- The name of the startup file is the given one. -/
def Names (startupFile : String) (workspace : Workspace) : Prop :=
  workspace.index.startupFile = startupFile

theorem Reached.names {startupFile : String} {workspace : Workspace}
    (reached : Reached startupFile workspace) : Names startupFile workspace := by
  refine reached.invariant ?_ (fun held _ updated => ?_) fun held closed => ?_
  · exact rfl
  · obtain ⟨summary, index, -, indexed⟩ := updated.reading
    rw [Names, indexed, ProjectIndex.startupFile_afterReading, held]
  · cases closed with
    | unknown absent => exact held
    | known present startup => rw [Names, ProjectIndex.startupFile_remove, held]

/-- Documents are known by normal addresses. -/
def Normal (workspace : Workspace) : Prop :=
  ∀ uri document, workspace.documents.get? uri = some document →
    ∃ address, Uri.normalize address = .ok uri

theorem Normal.insert {workspace : Workspace} {address uri : String} (held : workspace.Normal)
    (normal : Uri.normalize address = .ok uri) (index : ProjectIndex) (document : Document) :
    Normal ⟨index, workspace.documents.insert uri document⟩ := by
  intro other _ found
  rw [OrderedMap.get?_insert] at found
  split at found
  · rename_i same
    exact ⟨address, same ▸ normal⟩
  · exact held other _ found

theorem Normal.erase {workspace : Workspace} (held : workspace.Normal) (index : ProjectIndex)
    (uri : String) : Normal ⟨index, workspace.documents.erase uri⟩ := by
  intro other _ found
  rw [OrderedMap.get?_erase] at found
  split at found
  · cases found
  · exact held other _ found

theorem Updated.normal {workspace after : Workspace} {stale : List String} {address uri : String}
    {document : Document} {isStartup : Bool} (held : workspace.Normal)
    (normal : Uri.normalize address = .ok uri)
    (updated : Updated workspace after stale uri document isStartup) : after.Normal := by
  have opened := held.insert normal after.index document
  rwa [← updated.documents] at opened

theorem Closed.normal {workspace after : Workspace} {stale : List String} {uri : String}
    (held : workspace.Normal) (closed : Closed workspace uri after stale) : after.Normal := by
  cases closed with
  | unknown absent => exact held
  | known present startup => exact held.erase _ uri

theorem Reached.normal {startupFile : String} {workspace : Workspace}
    (reached : Reached startupFile workspace) : workspace.Normal :=
  reached.invariant (fun _ _ found => by cases found)
    (fun held normal updated => updated.normal held normal) fun held closed => closed.normal held

theorem Updated.get?_documents {workspace after : Workspace} {stale : List String} {uri : String}
    {document : Document} {isStartup : Bool}
    (updated : Updated workspace after stale uri document isStartup) (other : String) :
    after.documents.get? other =
      if other = uri then some document else workspace.documents.get? other := by
  rw [updated.documents, OrderedMap.get?_insert]

theorem Updated.mem_uris {workspace after : Workspace} {stale : List String} {uri other : String}
    {document : Document} {isStartup : Bool}
    (updated : Updated workspace after stale uri document isStartup) :
    other ∈ after.uris ↔ other = uri ∨ other ∈ workspace.uris := by
  rw [uris, updated.documents]
  exact OrderedMap.mem_keys_insert

/-- The text that an address has after a call, by what it had before. -/
def Call.textAfter (uri : String) (before : Option Text) : Call → Option Text
  | .update address text => if Uri.normalize address = .ok uri then some text else before
  | .close address => if Uri.normalize address = .ok uri then none else before

/-- The text that calls one after another have given an address last, unless it was closed since. -/
def lastText (requests : List Call) (uri : String) : Option Text :=
  requests.foldl (Call.textAfter uri) none

/-- The text of the open document with an address. -/
def text? (workspace : Workspace) (uri : String) : Option Text :=
  (workspace.documents.get? uri).map (·.text)

theorem text?_call {workspace : Workspace} {request : Call} {stale : List String}
    (passed : (workspace.call request).1 = .ok stale) (uri : String) :
    (workspace.call request).2.text? uri = request.textAfter uri (workspace.text? uri) := by
  cases request with
  | update address text =>
      obtain ⟨changed, document, isStartup, normal, rfl, updated⟩ := update_eq_ok passed
      have found := updated.get?_documents uri
      simp only [call, text?, found, Call.textAfter, normal, Except.ok.injEq]
      by_cases same : uri = changed
      · simp [same]
      · simp [same, Ne.symm same]
  | close address =>
      obtain ⟨changed, normal, closed⟩ := close_eq_ok passed
      simp only [Call.textAfter, normal, Except.ok.injEq]
      change (workspace.close address).2.text? uri = _
      generalize (workspace.close address).2 = after at closed
      cases closed with
      | unknown absent =>
          split
          · rename_i same
            subst same
            have gone : workspace.documents.get? changed = none := by
              simpa [OrderedMap.contains] using absent
            simp [text?, gone]
          · rfl
      | known present startup =>
          simp only [text?, OrderedMap.get?_erase]
          by_cases same : uri = changed
          · simp [same]
          · simp [same, Ne.symm same]

theorem text?_run {requests : List Call} {workspace : Workspace}
    (passed : workspace.passes requests = true) (uri : String) :
    (workspace.run requests).text? uri =
      requests.foldl (Call.textAfter uri) (workspace.text? uri) := by
  induction requests generalizing workspace with
  | nil => rfl
  | cons request rest ih =>
      obtain ⟨stale, done, passedRest⟩ := passes_cons.1 passed
      rw [run, List.foldl_cons, List.foldl_cons, ← text?_call done uri]
      exact ih passedRest

end ChoiceScript.Workspace
