import ChoiceScript.Proofs.Uri.Steady
import ChoiceScript.Proofs.Workspace.Checking
import ChoiceScript.Proofs.Workspace.Failure
import ChoiceScript.Proofs.Workspace.Staleness

/-! # Addresses that are returned

What an update returns are the normal addresses of open documents. The document is found again by an
address that is its own normal form, and then it can be checked. Where a normal address has another normal
form, it is the document with that one that is looked for.
-/

namespace ChoiceScript.Workspace

variable {startupFile known address : String} {text : Text} {workspace : Workspace} {stale : List String}

/-- Documents are known by normal addresses also where requests have failed. -/
theorem Visited.normal (visited : Visited startupFile workspace) : workspace.Normal := by
  induction visited with
  | fresh => exact fun _ _ found => by cases found
  | @step workspace request _ ih =>
      cases request with
      | diagnostics uri => exact ih
      | call request =>
          cases outcome : (workspace.call request).1 with
          | error fault =>
              have failed := call_eq_error outcome
              rw [serve]
              generalize (workspace.call request).2 = after at failed
              cases failed with
              | unread => exact ih
              | opened normal => exact ih.insert normal _ _
              | closed => exact ih.erase _ _
          | ok stale =>
              cases request with
              | update address text =>
                  obtain ⟨uri, document, isStartup, normal, -, updated⟩ := update_eq_ok outcome
                  exact updated.normal ih normal
              | close address =>
                  obtain ⟨uri, -, closed⟩ := close_eq_ok outcome
                  exact closed.normal ih

/-- What an update returns are addresses of open documents. -/
theorem exists_document_of_stale (passed : (workspace.update address text).1 = .ok stale)
    (member : known ∈ stale) :
    ∃ document, (workspace.update address text).2.documents.get? known = some document := by
  obtain ⟨uri, document, isStartup, -, -, updated⟩ := update_eq_ok passed
  rw [updated.stale] at member
  split at member
  · exact Option.isSome_iff_exists.1 (OrderedMap.contains_iff.2 member)
  · obtain rfl := List.mem_singleton.1 member
    exact ⟨document, by rw [updated.get?_documents, if_pos rfl]⟩

/-- The diagnostics asked for by any address are given just where its normal form is that of an open
document. -/
theorem Reached.diagnostics_passes_iff (reached : Reached startupFile workspace) :
    (∃ found, workspace.diagnostics address = .ok found) ↔
      ∃ uri ∈ workspace.uris, Uri.normalize address = .ok uri := by
  constructor
  · rintro ⟨found, given⟩
    obtain ⟨uri, normal, looked⟩ := Outcome.bind_eq_ok given
    refine ⟨uri, OrderedMap.contains_iff.1 ?_, normal⟩
    split at looked
    · cases looked
    · rename_i there
      simp [OrderedMap.contains, there]
  · rintro ⟨uri, among, normal⟩
    obtain ⟨document, open_⟩ := Option.isSome_iff_exists.1 (OrderedMap.contains_iff.2 among)
    obtain ⟨found, checked⟩ := reached.coherent.check_passes reached.normal open_
    exact ⟨found, (diagnostics_eq_check normal open_).trans checked⟩

/-- A normal address is its own normal form just where its parts are steady. All that an update returns
are normal addresses, and by one whose parts are steady the document is found again. If no request has
failed, diagnostics are given by a returned address just where its own normal form is that of an open
document. -/
theorem returned_addresses_exact {first normal : String} {uri : Uri}
    (read : Uri.parse first.toList = .ok uri) (passed : Uri.normalize first = .ok normal) :
    (Uri.normalize normal = .ok normal ↔ uri.normalParts.Steady) ∧
    ∀ (startupFile address : String) (text : Text) (workspace after : Workspace) (stale : List String),
      Visited startupFile workspace → workspace.update address text = (.ok stale, after) →
      (∀ known ∈ stale, ∃ given, Uri.normalize given = .ok known) ∧
      (normal ∈ stale →
        (uri.normalParts.Steady → ∃ document, after.documents.get? normal = some document ∧
          after.diagnostics normal = after.index.check document Rule.defaults) ∧
        (Reached startupFile workspace → ((∃ found, after.diagnostics normal = .ok found) ↔
          ∃ other ∈ after.uris, Uri.normalize normal = .ok other))) := by
  have stays := Uri.normalize_normal_iff read passed
  refine ⟨stays, fun startupFile address text workspace after stale visited updated => ?_⟩
  have done : (workspace.update address text).1 = .ok stale := by rw [updated]
  have openAfter {known : String} (member : known ∈ stale) :
      ∃ document, after.documents.get? known = some document := by
    have open_ := exists_document_of_stale done member
    rwa [updated] at open_
  refine ⟨fun known member => ?_, fun member => ⟨fun steady => ?_, fun reached => ?_⟩⟩
  · have visitedAfter := Visited.step (.call (.update address text)) visited
    have left : (workspace.serve (.call (.update address text))).2 = after := by
      rw [serve, call, updated]
    rw [left] at visitedAfter
    obtain ⟨document, open_⟩ := openAfter member
    exact visitedAfter.normal known document open_
  · obtain ⟨document, open_⟩ := openAfter member
    exact ⟨document, open_, diagnostics_eq_check (stays.2 steady) open_⟩
  · have reachedAfter := Reached.step (.update address text) reached done
    rw [call, updated] at reachedAfter
    exact reachedAfter.diagnostics_passes_iff

/-- An empty file on a host. -/
def hosted : Except Fault (List String) × Workspace :=
  (ofStartupFile "startup.txt").update "FILE://Host/a/./b/../c.txt" []

theorem hosted_stays : hosted.1 = .ok ["file://host/a/c.txt"] ∧
    Uri.normalize "file://host/a/c.txt" = .ok "file://host/a/c.txt" ∧
    ∃ found, hosted.2.diagnostics "file://host/a/c.txt" = .ok found := by
  obtain ⟨read, normal, stale, there⟩ :
      Uri.parse "FILE://Host/a/./b/../c.txt".toList =
        .ok ⟨"file".toList, "Host".toList, "/a/./b/../c.txt".toList, [], []⟩ ∧
      Uri.normalize "FILE://Host/a/./b/../c.txt" = .ok "file://host/a/c.txt" ∧
      hosted.1 = .ok ["file://host/a/c.txt"] ∧ "file://host/a/c.txt" ∈ hosted.2.uris := by
    decide +kernel
  obtain ⟨stays, returned⟩ := returned_addresses_exact read normal
  have again := stays.2 (Uri.steady_of_authority (by decide +kernel))
  obtain ⟨-, checked⟩ := returned "startup.txt" _ _ _ _ _ .fresh (Prod.ext stale rfl)
  exact ⟨stale, again, ((checked List.mem_cons_self).2 .fresh).2 ⟨_, there, again⟩⟩

/-- The same with no host and four slashes in front of the path. -/
def slashed : Except Fault (List String) × Workspace := (ofStartupFile "startup.txt").update "file:////A/b" []

/-- Of four slashes the first two are taken for those of an authority and left out, and what follows the
others is a host the next time. -/
theorem slashed_strays :
    (¬ ∀ first normal : String, Uri.normalize first = .ok normal → Uri.normalize normal = .ok normal) ∧
    ¬ ∀ (startupFile address : String) (text : Text) (workspace after : Workspace) (stale : List String),
      Reached startupFile workspace → workspace.update address text = (.ok stale, after) →
      ∀ known ∈ stale, ∀ other, after.diagnostics known ≠ .error (.unknownDocument other) := by
  obtain ⟨normal, again, stale, unknown⟩ :
      Uri.normalize "file:////A/b" = .ok "file://A/b" ∧ Uri.normalize "file://A/b" = .ok "file://a/b" ∧
      slashed.1 = .ok ["file://A/b"] ∧
      slashed.2.diagnostics "file://A/b" = .error (.unknownDocument "file://a/b") := by
    decide +kernel
  refine ⟨fun stays => ?_, fun found => ?_⟩
  · have same := again.symm.trans (stays _ _ normal)
    exact absurd same (by decide)
  · exact found "startup.txt" _ _ _ _ _ .fresh (Prod.ext stale rfl) "file://A/b" List.mem_cons_self _ unknown

end ChoiceScript.Workspace
