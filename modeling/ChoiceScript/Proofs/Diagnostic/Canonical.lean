import Mathlib.Data.List.Nodup
import ChoiceScript.Proofs.Nesting.Document
import ChoiceScript.Proofs.Rule.Kinds
import ChoiceScript.Proofs.Workspace.Checking

/-! # One order for diagnostics

A notice is known by its code, and everything in a diagnostic but its message and its range comes from
its notice. So of what the notices of the catalogue make no two diagnostics tie unless they are the
same, and it makes no difference in which order they are found: neither the order in which the errors of
reading come nor that of the rules is seen in the answer of a check.
-/

namespace ChoiceScript

theorem Notice.eq_of_code {notice other : Notice} (listed : notice ∈ catalogue) (also : other ∈ catalogue)
    (code : notice.code = other.code) : notice = other := by
  have apart : (catalogue.map (·.code)).Nodup := by decide +kernel
  exact List.inj_on_of_nodup_map apart listed also code

namespace Diagnostic

/-- A notice of the catalogue makes the diagnostic. -/
def OfCatalogue (diagnostic : Diagnostic) : Prop :=
  ∃ notice ∈ Notice.catalogue, notice.Makes diagnostic

theorem OfReading.ofCatalogue {diagnostic : Diagnostic} (reading : diagnostic.OfReading) :
    diagnostic.OfCatalogue := by
  obtain ⟨notice, known, makes⟩ := reading
  exact ⟨notice, known.2, makes⟩

/-- Code, message and range tell the diagnostics of the catalogue apart. -/
theorem OfCatalogue.eq_of_ties {a b : Diagnostic} (first : a.OfCatalogue) (second : b.OfCatalogue)
    (ties : a.Ties b) : a = b := by
  obtain ⟨notice, listed, makes⟩ := first
  obtain ⟨other, also, makesOther⟩ := second
  obtain ⟨start, stop, code, message⟩ := ties
  have same : notice = other :=
    Notice.eq_of_code listed also (makes.code.symm.trans (code.trans makesOther.code))
  have range : a.range = b.range := by
    cases known : a.range
    cases knownOther : b.range
    simp_all
  rw [makes.eq, makesOther.eq, same, message, range]

theorem sort_eq_of_catalogue {diagnostics others : List Diagnostic}
    (listed : ∀ diagnostic ∈ diagnostics, diagnostic.OfCatalogue) (same : diagnostics.Perm others) :
    sort diagnostics = sort others :=
  sort_eq_of_perm same fun a here b there => (listed a here).eq_of_ties (listed b there)

end Diagnostic

/-- The rules that there are find what notices of the catalogue make. -/
theorem Rule.ofCatalogue_of_run {rule : Rule} (known : rule ∈ Rule.defaults) {inspection : Inspection}
    {found : List Diagnostic} (passed : rule.run inspection = .ok found) :
    ∀ diagnostic ∈ found, diagnostic.OfCatalogue := by
  suffices ∃ kinds : List Notice, rule.FindsOnly kinds ∧ ∀ notice ∈ kinds, notice ∈ Notice.catalogue by
    obtain ⟨kinds, findsOnly, listed⟩ := this
    intro diagnostic member
    obtain ⟨notice, wanted, makes⟩ := findsOnly inspection found passed diagnostic member
    exact ⟨notice, listed notice wanted, makes⟩
  simp only [defaults, List.mem_cons, List.not_mem_nil, or_false] at known
  rcases known with rfl | rfl | rfl | rfl
  · exact ⟨_, jumps_findsOnly, by decide⟩
  · exact ⟨_, variableUse_findsOnly, by decide⟩
  · exact ⟨_, placement_findsOnly, by decide⟩
  · exact ⟨_, punctuation_findsOnly, by decide⟩

namespace ProjectIndex

/-- An index that documents are read into and forgotten from, and that is set in no other way. -/
inductive FromReading : ProjectIndex → Prop where
  | fresh (startupFile : String) : FromReading { startupFile }
  | update {index after : ProjectIndex} {document : Document} {isStartup : Bool} {startupFile : String}
    {documentIndex : DocumentIndex} (before : FromReading index)
    (passed : index.update document isStartup startupFile = .ok (documentIndex, after)) :
    FromReading after
  | remove {index : ProjectIndex} (uri : String) (before : FromReading index) :
    FromReading (index.remove uri)

variable {index : ProjectIndex} {document : Document} {rules others : List Rule}
  {diagnostics : List Diagnostic}

/-- Errors come into such an index by reading only. -/
theorem FromReading.errors (fromReading : FromReading index) (uri : String) :
    ∀ diagnostic ∈ (index.document uri).errors, diagnostic.OfReading := by
  induction fromReading with
  | fresh startupFile => exact fun _ member => absurd member List.not_mem_nil
  | @update index after document isStartup startupFile documentIndex _ passed ih =>
      obtain ⟨reports, read, -⟩ := Outcome.bind_eq_ok passed
      obtain ⟨made, indexed, updated⟩ := index.update_eq_ok isStartup read
      obtain ⟨-, rfl⟩ := Prod.mk.inj (Except.ok.inj (passed.symm.trans updated))
      rw [document_afterReading]
      split
      · intro diagnostic member
        obtain ⟨scopes, -, -, rfl⟩ := Summary.documentIndex_eq_ok indexed
        have reported := Summary.mem_errors_ofReports.1 member
        rw [Source.reports_eq_ok read] at reported
        exact (Source.tidy_stream _).errors reported
      · exact ih
  | remove gone _ ih =>
      by_cases same : uri = gone
      · intro diagnostic member
        simp only [ProjectIndex.document, documents_remove, OrderedMap.get?_erase, same, if_true] at member
        exact absurd member List.not_mem_nil
      · rw [document_remove same]
        exact ih

/-- The rules that there are may be run. What a check gives is what was stored and what they find. -/
theorem check_eq_ok_iff (known : ∀ rule ∈ rules, rule ∈ Rule.defaults) :
    index.check document rules = .ok diagnostics ↔
      ∃ found, rules.mapM (·.run (.of document index)) = .ok found ∧ diagnostics =
        Diagnostic.sort ((index.document document.uri).errors ++ found.flatten) := by
  have fine : ∀ rule ∈ Rule.defaults, rule.validate = .ok () := by
    simp only [Rule.defaults, List.forall_mem_cons, List.not_mem_nil, false_imp_iff, forall_true_iff]
    exact ⟨rfl, rfl, rfl, rfl, trivial⟩
  have valid : rules.forM Rule.validate = .ok () := by
    induction rules with
    | nil => rfl
    | cons rule rest ih =>
        change (rule.validate >>= fun _ => rest.forM Rule.validate) = .ok ()
        rw [fine rule (known rule List.mem_cons_self)]
        exact ih fun other later => known other (List.mem_cons_of_mem _ later)
  constructor
  · intro passed
    obtain ⟨-, -, rest⟩ := Outcome.bind_eq_ok passed
    obtain ⟨found, ran, same⟩ := Outcome.bind_eq_ok rest
    exact ⟨found, ran, (Except.ok.inj same).symm⟩
  · rintro ⟨found, ran, rfl⟩
    simp only [check, valid, ran, Outcome.bind_ok, Outcome.pure_eq]

/-- Notices of the catalogue make all that is stored and all that the rules find. -/
theorem FromReading.ofCatalogue (fromReading : FromReading index)
    (known : ∀ rule ∈ rules, rule ∈ Rule.defaults) {found : List (List Diagnostic)}
    (ran : rules.mapM (·.run (.of document index)) = .ok found) :
    ∀ diagnostic ∈ (index.document document.uri).errors ++ found.flatten, diagnostic.OfCatalogue := by
  intro diagnostic member
  cases List.mem_append.1 member with
  | inl stored => exact (fromReading.errors _ diagnostic stored).ofCatalogue
  | inr inFound =>
      obtain ⟨part, among, inside⟩ := List.mem_flatten.1 inFound
      obtain ⟨rule, chosen, made⟩ := (Outcome.mem_mapM ran).1 among
      exact Rule.ofCatalogue_of_run (known rule chosen) made diagnostic inside

/-- The order of the rules makes no difference. -/
theorem FromReading.check_perm (fromReading : FromReading index)
    (known : ∀ rule ∈ rules, rule ∈ Rule.defaults) (same : rules.Perm others)
    (passed : index.check document rules = .ok diagnostics) :
    index.check document others = .ok diagnostics := by
  obtain ⟨found, ran, rfl⟩ := (check_eq_ok_iff known).1 passed
  obtain ⟨foundOther, ranOther, perm⟩ := Outcome.mapM_perm same ran
  have knownOther : ∀ rule ∈ others, rule ∈ Rule.defaults :=
    fun rule member => known rule (same.mem_iff.2 member)
  refine (check_eq_ok_iff knownOther).2 ⟨foundOther, ranOther, ?_⟩
  exact Diagnostic.sort_eq_of_catalogue (fromReading.ofCatalogue known ran) (perm.flatten.append_left _)

end ProjectIndex

namespace Workspace

variable {startupFile uri : String} {workspace : Workspace} {document : Document} {rules : List Rule}

/-- All that the index of a workspace holds comes from reading. -/
def Reads (workspace : Workspace) : Prop := workspace.index.FromReading

theorem Reached.fromReading (reached : Reached startupFile workspace) : workspace.Reads := by
  refine reached.invariant (.fresh startupFile) (fun held _ updated => ?_) fun held closed => ?_
  · obtain ⟨summary, index, reads, indexed⟩ := updated.reading
    obtain ⟨reports, read, rfl⟩ := reads.summed
    obtain ⟨made, summed, passed⟩ := ProjectIndex.update_eq_ok _ _ read
    obtain rfl := Except.ok.inj (reads.indexed.symm.trans summed)
    rw [Reads, indexed, ← updated.address]
    exact .update held passed
  · cases closed with
    | unknown absent => exact held
    | known present startup => exact .remove _ held

/-- Every open document can be checked by any of the rules that there are. -/
theorem Reached.check_passes (reached : Reached startupFile workspace)
    (open_ : workspace.documents.get? uri = some document)
    (known : ∀ rule ∈ rules, rule ∈ Rule.defaults) :
    ∃ diagnostics, workspace.index.check document rules = .ok diagnostics := by
  obtain ⟨all, passed⟩ := reached.coherent.check_passes reached.normal open_
  obtain ⟨jumps, uses, placed, marks, jumpsRun, usesRun, placedRun, marksRun, -⟩ :=
    ProjectIndex.check_eq_ok passed
  obtain ⟨found, ran⟩ : ∃ found, rules.mapM (·.run (.of document workspace.index)) = .ok found := by
    refine Outcome.mapM_passes fun rule chosen => ?_
    have among := known rule chosen
    simp only [Rule.defaults, List.mem_cons, List.not_mem_nil, or_false] at among
    rcases among with rfl | rfl | rfl | rfl
    · exact ⟨jumps, jumpsRun⟩
    · exact ⟨uses, usesRun⟩
    · exact ⟨placed, placedRun⟩
    · exact ⟨marks, marksRun⟩
  exact ⟨_, (ProjectIndex.check_eq_ok_iff known).2 ⟨found, ran, rfl⟩⟩

end Workspace

/-- Sorting gives the diagnostics in their order, those that tie as they came. What notices of the
catalogue make comes out the same however it went in. A check by some of the rules gives the stored
errors and what each rule finds, the same in every order of the rules, and it gives an answer for every
open document of a reached workspace. -/
theorem diagnostics_canonical :
    (∀ diagnostics : List Diagnostic, (Diagnostic.sort diagnostics).Perm diagnostics ∧
      Diagnostic.Ordered (Diagnostic.sort diagnostics) ∧ ∀ other : Diagnostic,
        (Diagnostic.sort diagnostics).filter (other.Ties ·) = diagnostics.filter (other.Ties ·)) ∧
    (∀ diagnostics others : List Diagnostic, (∀ diagnostic ∈ diagnostics, diagnostic.OfCatalogue) →
      diagnostics.Perm others → Diagnostic.sort diagnostics = Diagnostic.sort others) ∧
    (∀ (index : ProjectIndex) (document : Document) (rules others : List Rule), index.FromReading →
      (∀ rule ∈ rules, rule ∈ Rule.defaults) → rules.Perm others → ∀ diagnostics,
        (index.check document rules = .ok diagnostics ↔
          index.check document others = .ok diagnostics) ∧
        (index.check document rules = .ok diagnostics →
          ∃ found, rules.mapM (·.run (.of document index)) = .ok found ∧
            diagnostics.Perm ((index.document document.uri).errors ++ found.flatten))) ∧
    ∀ (startupFile uri : String) (workspace : Workspace) (document : Document) (rules : List Rule),
      Workspace.Reached startupFile workspace → workspace.documents.get? uri = some document →
      (∀ rule ∈ rules, rule ∈ Rule.defaults) → workspace.index.FromReading ∧
        ∃ diagnostics, workspace.index.check document rules = .ok diagnostics := by
  refine ⟨fun diagnostics => ?_, fun diagnostics others => ?_, ?_, ?_⟩
  · exact ⟨Diagnostic.sort_perm _, Diagnostic.sort_ordered _, fun other => Diagnostic.filter_sort _ _⟩
  · exact Diagnostic.sort_eq_of_catalogue
  · intro index document rules others fromReading known same diagnostics
    have knownOther : ∀ rule ∈ others, rule ∈ Rule.defaults :=
      fun rule member => known rule (same.mem_iff.2 member)
    refine ⟨⟨fromReading.check_perm known same, fromReading.check_perm knownOther same.symm⟩, ?_⟩
    intro passed
    obtain ⟨found, ran, rfl⟩ := (ProjectIndex.check_eq_ok_iff known).1 passed
    exact ⟨found, ran, Diagnostic.sort_perm _⟩
  · intro startupFile uri workspace document rules reached open_ known
    exact ⟨reached.fromReading, reached.check_passes open_ known⟩

/-- A value without a number and two dashes. -/
def untidy : Document := ⟨"file:///game/a.txt", "Wait--\n*set gold 1 +\n".toList, 0⟩

def untidyWorkspace : Workspace :=
  (Workspace.ofStartupFile "startup.txt").run [.update untidy.uri untidy.text]

/-- Its error and what the rules find come out the same with the rules the other way round, and the
other way round themselves. -/
theorem untidy_canonical : ∃ diagnostics,
    untidyWorkspace.index.check untidy Rule.defaults = .ok diagnostics ∧ diagnostics.length = 3 ∧
      untidyWorkspace.index.check untidy Rule.defaults.reverse = .ok diagnostics ∧
      Diagnostic.sort diagnostics = Diagnostic.sort diagnostics.reverse := by
  have reached : Workspace.Reached "startup.txt" untidyWorkspace :=
    Workspace.Reached.fresh.run (by decide +kernel)
  have open_ : untidyWorkspace.documents.get? untidy.uri = some untidy := by decide +kernel
  have length : (untidyWorkspace.index.check untidy Rule.defaults).toOption.map (·.length) = some 3 := by
    decide +kernel
  obtain ⟨-, sorts, checks, passes⟩ := diagnostics_canonical
  obtain ⟨fromReading, diagnostics, passed⟩ :=
    passes "startup.txt" untidy.uri untidyWorkspace untidy Rule.defaults reached open_ fun _ => id
  obtain ⟨same, parts⟩ := checks untidyWorkspace.index untidy Rule.defaults Rule.defaults.reverse
    fromReading (fun _ => id) (List.reverse_perm _).symm diagnostics
  obtain ⟨found, ran, perm⟩ := parts passed
  have listed : ∀ diagnostic ∈ diagnostics, diagnostic.OfCatalogue := fun diagnostic member =>
    fromReading.ofCatalogue (fun _ => id) ran diagnostic (perm.mem_iff.1 member)
  rw [passed] at length
  exact ⟨diagnostics, passed, Option.some.inj length, same.1 passed,
    sorts diagnostics diagnostics.reverse listed (List.reverse_perm _).symm⟩

end ChoiceScript
