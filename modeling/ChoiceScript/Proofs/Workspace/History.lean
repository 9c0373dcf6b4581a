import ChoiceScript.Proofs.Mention.Document
import ChoiceScript.Proofs.Workspace.Staleness
import Mathlib.Data.List.Pairwise

/-! # History leaves no trace

What is known of a document does not depend on its version. So once no two startup files were opened,
a project is known by the texts of its open documents: a startup file among them owns the tables of
the project, and without one the tables are empty. Two workspaces that hold the same texts give the
same diagnostics, whatever calls they come from.
-/

namespace ChoiceScript

/-- What a document reports does not depend on its version. -/
theorem Source.reports_atVersion (source : Source) (version : Nat) :
    (source.atVersion version).reports = source.reports := by
  obtain ⟨outcome, new, -, -, ran⟩ := Parser.stages_whole source
  have whole : Parser.whole (source.atVersion version) {} = Parser.whole source {} :=
    (ran version []).trans (ran source.document.version []).symm
  unfold Source.reports Parser.run
  rw [whole]

namespace Document.Reads

variable {document other : Document} {startupFile : String} {isStartup again : Bool}
  {summary summaryAgain : Summary} {index indexAgain : DocumentIndex}

/-- Two versions of a text at one address have one reading. -/
theorem unique (reads : document.Reads startupFile isStartup summary index)
    (readsAgain : other.Reads startupFile again summaryAgain indexAgain)
    (uri : other.uri = document.uri) (text : other.text = document.text) :
    again = isStartup ∧ summaryAgain = summary ∧ indexAgain = index := by
  obtain ⟨uri', text', version⟩ := other
  simp only at uri text
  subst uri text
  obtain ⟨reports, reported, rfl⟩ := reads.summed
  obtain ⟨reportsAgain, reportedAgain, rfl⟩ := readsAgain.summed
  have sameStartup : again = isStartup :=
    Except.ok.inj (readsAgain.startup.symm.trans reads.startup)
  have sameReports : reportsAgain = reports := by
    have same := Source.reports_atVersion ⟨document, startupFile⟩ version
    exact Except.ok.inj (reportedAgain.symm.trans (same.trans reported))
  subst sameStartup sameReports
  exact ⟨rfl, rfl, Except.ok.inj (readsAgain.indexed.symm.trans reads.indexed)⟩

end Document.Reads

namespace Workspace

/-- The normal addresses of the startup files that some calls open. -/
def startupUris (startupFile : String) (requests : List Call) : List String :=
  requests.filterMap fun
    | .update address _ =>
      match Uri.normalize address with
      | .ok uri => if Uri.isStartup startupFile uri = .ok true then some uri else none
      | .error _ => none
    | .close _ => none

/-- Some calls open no two startup files. To close one that is not open does nothing, so only opening
counts. -/
def OneStartup (startupFile : String) (requests : List Call) : Prop :=
  (startupUris startupFile requests).Pairwise (· = ·)

instance (startupFile : String) (requests : List Call) : Decidable (OneStartup startupFile requests) :=
  inferInstanceAs (Decidable (List.Pairwise _ _))

theorem mem_startupUris {startupFile address uri : String} {text : Text} {requests : List Call}
    (member : .update address text ∈ requests) (normal : Uri.normalize address = .ok uri)
    (startup : Uri.isStartup startupFile uri = .ok true) : uri ∈ startupUris startupFile requests := by
  refine List.mem_filterMap.2 ⟨.update address text, member, ?_⟩
  simp only [normal, startup, if_true]

theorem OneStartup.eq {startupFile uri other : String} {requests : List Call}
    (one : OneStartup startupFile requests) (first : uri ∈ startupUris startupFile requests)
    (second : other ∈ startupUris startupFile requests) : uri = other :=
  List.Pairwise.forall_of_forall (fun _ _ => rfl) one first second

/-- Every open startup file is among some addresses and owns the tables of the project. -/
def StartupOwns (startups : List String) (workspace : Workspace) : Prop :=
  ∀ uri document, workspace.documents.get? uri = some document →
    Uri.isStartup workspace.index.startupFile uri = .ok true →
    uri ∈ startups ∧ workspace.index.OwnedBy document

section Run

variable {workspace after : Workspace} {startups stale : List String} {uri : String}

theorem StartupOwns.update {document : Document} {isStartup : Bool}
    (owns : workspace.StartupOwns startups) (one : ∀ uri ∈ startups, ∀ other ∈ startups, uri = other)
    (listed : Uri.isStartup workspace.index.startupFile uri = .ok true → uri ∈ startups)
    (updated : Updated workspace after stale uri document isStartup) : after.StartupOwns startups := by
  obtain ⟨_, _, reads, -⟩ := updated.reading
  have told := reads.startup
  rw [updated.address] at told
  intro other open_ present startup
  rw [updated.startupFile] at startup
  rw [updated.get?_documents] at present
  split at present
  · rename_i same
    subst same
    cases present
    obtain rfl : true = isStartup := Except.ok.inj (startup.symm.trans told)
    exact ⟨listed told, updated.owned⟩
  · rename_i apart
    obtain ⟨member, owned⟩ := owns other open_ present startup
    cases isStartup with
    | true => exact absurd (one other member uri (listed told)) apart
    | false => exact ⟨member, updated.tables_same.2 open_ owned⟩

theorem StartupOwns.close (coherent : workspace.Coherent) (owns : workspace.StartupOwns startups)
    (closed : Closed workspace uri after stale) : after.StartupOwns startups := by
  cases closed with
  | unknown absent => exact owns
  | known present _ =>
      intro other document open_ startup
      rw [ProjectIndex.startupFile_remove] at startup
      simp only [OrderedMap.get?_erase] at open_
      split at open_
      · cases open_
      · rename_i apart
        obtain ⟨member, owned⟩ := owns other document open_ startup
        obtain ⟨rfl, -⟩ := coherent.documents other document open_
        exact ⟨member, owned_remove owned apart⟩

/-- A workspace that is reached and whose open startup files own its tables. -/
structure Settled (startupFile : String) (startups : List String) (workspace : Workspace) : Prop where
  reached : Reached startupFile workspace
  owns : workspace.StartupOwns startups

/-- Passing calls that open one startup file at most lead to a settled workspace. -/
theorem settled_run {startupFile : String} {requests : List Call}
    (passed : (ofStartupFile startupFile).passes requests = true)
    (one : OneStartup startupFile requests) :
    Settled startupFile (startupUris startupFile requests)
      ((ofStartupFile startupFile).run requests) := by
  apply run_induction passed
  · exact ⟨.fresh, fun _ _ found => by cases found⟩
  · intro request member before stale settled done
    refine ⟨.step request settled.reached done, ?_⟩
    cases request with
    | update address text =>
        obtain ⟨uri, document, isStartup, normal, -, updated⟩ := update_eq_ok done
        refine settled.owns.update (fun _ first _ second => one.eq first second) ?_ updated
        intro startup
        rw [settled.reached.names] at startup
        exact mem_startupUris member normal startup
    | close address =>
        obtain ⟨uri, -, closed⟩ := close_eq_ok done
        exact settled.owns.close settled.reached.coherent closed

end Run

section Compare

variable {startupFile uri : String} {startups others : List String} {first second : Workspace}
  {document : Document}

/-- The same documents are open with the same texts. -/
def SameTexts (first second : Workspace) : Prop := ∀ uri, first.text? uri = second.text? uri

/-- Only the documents that one of the two workspaces holds have to be compared. -/
theorem sameTexts_iff : first.SameTexts second ↔
    ∀ uri ∈ first.uris ++ second.uris, first.text? uri = second.text? uri := by
  constructor
  · intro texts uri _
    exact texts uri
  · intro texts uri
    by_cases listed : uri ∈ first.uris ++ second.uris
    · exact texts uri listed
    · simp only [List.mem_append, not_or, uris, ← OrderedMap.contains_iff, OrderedMap.contains,
        Option.not_isSome_iff_eq_none] at listed
      rw [text?, text?, listed.1, listed.2]

instance (first second : Workspace) : Decidable (first.SameTexts second) :=
  decidable_of_iff _ sameTexts_iff.symm

theorem SameTexts.symm (texts : SameTexts first second) : SameTexts second first :=
  fun uri => (texts uri).symm

theorem SameTexts.get? (texts : SameTexts first second)
    (open_ : first.documents.get? uri = some document) :
    ∃ again, second.documents.get? uri = some again ∧ again.text = document.text := by
  have same := texts uri
  rw [text?, text?, open_, Option.map_some, eq_comm] at same
  exact Option.map_eq_some_iff.1 same

theorem SameTexts.get?_none (texts : SameTexts first second)
    (closed : first.documents.get? uri = none) : second.documents.get? uri = none := by
  have same := texts uri
  rw [text?, text?, closed, Option.map_none, eq_comm] at same
  exact Option.map_eq_none_iff.1 same

theorem Coherent.document_of_closed (coherent : first.Coherent)
    (closed : first.documents.get? uri = none) : first.index.document uri = ∅ := by
  have unknown : first.index.documents.get? uri = none := by
    rw [← Option.not_isSome_iff_eq_none]
    intro known
    have listed := OrderedMap.contains_iff.1 known
    rw [← coherent.uris] at listed
    have opened := OrderedMap.contains_iff.2 listed
    rw [OrderedMap.contains, closed] at opened
    cases opened
  rw [ProjectIndex.document, unknown]
  rfl

/-- What is known of a document is known by its text. -/
theorem SameTexts.same_document (texts : SameTexts first second)
    (reached : Reached startupFile first) (reachedToo : Reached startupFile second) (uri : String) :
    second.index.document uri = first.index.document uri := by
  cases open_ : first.documents.get? uri with
  | none =>
      rw [reached.coherent.document_of_closed open_,
        reachedToo.coherent.document_of_closed (texts.get?_none open_)]
  | some document =>
      obtain ⟨again, openToo, text⟩ := texts.get? open_
      obtain ⟨rfl, indexes⟩ := reached.coherent.documents uri document open_
      obtain ⟨address, indexesToo⟩ := reachedToo.coherent.documents _ again openToo
      obtain ⟨isStartup, summary, reads⟩ := indexes.read
      obtain ⟨isStartupToo, summaryToo, readsToo⟩ := indexesToo.read
      rw [reached.names] at reads
      rw [reachedToo.names, address] at readsToo
      exact (reads.unique readsToo address text).2.2

/-- The tables of two projects with startup files of one address and text are the same. -/
theorem SameTexts.same_tables_of_owner (texts : SameTexts first second)
    (settled : Settled startupFile startups first) (settledToo : Settled startupFile others second)
    (open_ : first.documents.get? uri = some document) (owned : first.index.OwnedBy document) :
    first.index.SameTables second.index := by
  obtain ⟨again, openToo, text⟩ := texts.get? open_
  obtain ⟨rfl, -⟩ := settled.reached.coherent.documents uri document open_
  obtain ⟨address, -⟩ := settledToo.reached.coherent.documents _ again openToo
  obtain ⟨summary, index, reads, globals, scenes, achievements⟩ := owned.read
  rw [settled.reached.names] at reads
  obtain ⟨-, ownedToo⟩ := settledToo.owns document.uri again openToo
    (by rw [settledToo.reached.names]; exact reads.startup)
  obtain ⟨summaryToo, indexToo, readsToo, globalsToo, scenesToo, achievementsToo⟩ := ownedToo.read
  rw [settledToo.reached.names] at readsToo
  obtain ⟨-, rfl, -⟩ := reads.unique readsToo address text
  exact
    { startupFile := settledToo.reached.names.trans settled.reached.names.symm
      startupUri := by rw [owned.startupUri, ownedToo.startupUri, address]
      globalVariables := globalsToo.trans globals.symm
      scenes := scenesToo.trans scenes.symm
      achievements := achievementsToo.trans achievements.symm }

/-- The tables of a settled project are known by the texts of its open documents. -/
theorem SameTexts.same_tables (texts : SameTexts first second)
    (settled : Settled startupFile startups first) (settledToo : Settled startupFile others second) :
    first.index.SameTables second.index := by
  rcases settled.reached.coherent.tables with ownerless | ⟨uri, document, open_, owned⟩
  · rcases settledToo.reached.coherent.tables with ownerlessToo | ⟨uri, document, openToo, ownedToo⟩
    · exact
        { startupFile := settledToo.reached.names.trans settled.reached.names.symm
          startupUri := ownerlessToo.startupUri.trans ownerless.startupUri.symm
          globalVariables := ownerlessToo.globalVariables.trans ownerless.globalVariables.symm
          scenes := ownerlessToo.scenes.trans ownerless.scenes.symm
          achievements := ownerlessToo.achievements.trans ownerless.achievements.symm }
    · exact (texts.symm.same_tables_of_owner settledToo settled openToo ownedToo).symm
  · exact texts.same_tables_of_owner settled settledToo open_ owned

/-- The diagnostics of a settled workspace are known by the texts of its open documents. -/
theorem SameTexts.same_diagnostics (texts : SameTexts first second)
    (settled : Settled startupFile startups first) (settledToo : Settled startupFile others second)
    (address : String) : second.diagnostics address = first.diagnostics address := by
  cases normal : Uri.normalize address with
  | error fault => simp only [diagnostics, normal, Outcome.bind_error]
  | ok uri =>
      cases open_ : first.documents.get? uri with
      | none => simp only [diagnostics, normal, Outcome.bind_ok, open_, texts.get?_none open_]
      | some document =>
          obtain ⟨again, openToo, text⟩ := texts.get? open_
          rw [diagnostics_eq_check normal open_, diagnostics_eq_check normal openToo]
          obtain ⟨rfl, -⟩ := settled.reached.coherent.documents uri document open_
          obtain ⟨address, -⟩ := settledToo.reached.coherent.documents _ again openToo
          have known := texts.same_document settled.reached settledToo.reached
          have same : first.index.SameFor second.index document.uri :=
            ⟨texts.same_tables settled settledToo, known document.uri⟩
          have checked := ProjectIndex.check_agrees same.agrees fun event _ file _ => by
            rw [Rule.labelStands, Rule.labelStands, known file]
          -- no rule looks at the version, the one thing that sets the two documents apart
          obtain ⟨_, _, version⟩ := again
          simp only at address text
          subst address text
          exact checked

end Compare

/-- Two runs of passing calls that each open one startup file at most and end with the same texts of
the same documents end with the same diagnostics at every address, and these can be made for every
open document. -/
theorem diagnostics_forget_history {startupFile : String} {first second : List Call}
    (passed : (ofStartupFile startupFile).passes first = true)
    (passedToo : (ofStartupFile startupFile).passes second = true)
    (one : OneStartup startupFile first) (oneToo : OneStartup startupFile second)
    (texts : ((ofStartupFile startupFile).run first).SameTexts
      ((ofStartupFile startupFile).run second)) (address : String) :
    ((ofStartupFile startupFile).run second).diagnostics address =
      ((ofStartupFile startupFile).run first).diagnostics address ∧
    ∀ uri, Uri.normalize address = .ok uri →
      ((ofStartupFile startupFile).run first).documents.contains uri = true →
      ∃ list, ((ofStartupFile startupFile).run first).diagnostics address = .ok list := by
  have settled := settled_run passed one
  refine ⟨texts.same_diagnostics settled (settled_run passedToo oneToo) address, ?_⟩
  intro uri normal present
  obtain ⟨document, open_⟩ := Option.isSome_iff_exists.1 present
  rw [diagnostics_eq_check normal open_]
  exact settled.reached.coherent.check_passes settled.reached.normal open_

/-- A startup file, one of its scenes and a jump to a label that the scene does not have. -/
def straight : List Call :=
  [.update "file:///game/startup.txt" "*scene_list\n  b\n".toList,
    .update "file:///game/b.txt" "*label bar".toList,
    .update "file:///game/a.txt" "*goto_scene b foo".toList]

/-- The same documents in another order, with another text of one and another startup file before. -/
def detour : List Call :=
  [.update "file:///game/a.txt" "$\x7bgold\x7d".toList,
    .update "file:///game/startup.txt" "*create gold 1".toList,
    .close "file:///game/startup.txt",
    .update "file:///game/b.txt" "*label bar".toList,
    .update "FILE:///game/./a.txt" "*goto_scene b foo".toList,
    .update "file:///game/startup.txt" "*scene_list\n  b\n".toList]

theorem detour_forgotten :
    straight ≠ detour ∧
    ((ofStartupFile "startup.txt").run straight).SameTexts
      ((ofStartupFile "startup.txt").run detour) ∧
    ∃ diagnostic,
      ((ofStartupFile "startup.txt").run straight).diagnostics "file:///game/a.txt" =
        .ok [diagnostic] ∧
      ((ofStartupFile "startup.txt").run detour).diagnostics "file:///game/a.txt" =
        .ok [diagnostic] := by
  obtain ⟨passed, passedToo, one, oneToo, texts⟩ :
      (ofStartupFile "startup.txt").passes straight = true ∧
      (ofStartupFile "startup.txt").passes detour = true ∧
      OneStartup "startup.txt" straight ∧ OneStartup "startup.txt" detour ∧
      ((ofStartupFile "startup.txt").run straight).SameTexts
        ((ofStartupFile "startup.txt").run detour) := by
    decide +kernel
  have found : (((ofStartupFile "startup.txt").run straight).diagnostics
      "file:///game/a.txt").toOption.map List.length = some 1 := by
    decide +kernel
  obtain ⟨same, -⟩ :=
    diagnostics_forget_history passed passedToo one oneToo texts "file:///game/a.txt"
  refine ⟨by decide, texts, ?_⟩
  cases made : ((ofStartupFile "startup.txt").run straight).diagnostics "file:///game/a.txt" with
  | error fault => simp [made, Except.toOption] at found
  | ok list =>
      simp only [made, Except.toOption, Option.map_some, Option.some.injEq,
        List.length_eq_one_iff] at found
      obtain ⟨diagnostic, rfl⟩ := found
      exact ⟨diagnostic, rfl, same.trans made⟩

end Workspace

end ChoiceScript
