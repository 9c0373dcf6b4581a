import ChoiceScript.Proofs.Index.Contents
import ChoiceScript.Proofs.Mention.Document
import ChoiceScript.Proofs.Nesting.Document
import ChoiceScript.Proofs.Rule.Kinds
import ChoiceScript.Proofs.Rule.VariableUse
import ChoiceScript.Proofs.Workspace.Staleness

/-! # Undefined variables are found exactly

In a reached workspace the diagnostics of an open document hold one error for each use of a variable
that is undefined where it stands, and none for any other use. What counts is what the document
reports, the variables and the achievements of the project, and nothing else.
-/

namespace ChoiceScript

/-- In a document with the given reports nothing defines a name where it is used. -/
structure UndefinedAt (project : ProjectIndex) (isStartup : Bool) (reports : List Report)
    (name : String) (place : Position) : Prop where
  noLocal : ¬ ∃ report ∈ reports, report.createsLocal isStartup name
  noGlobal : name ∉ project.globalVariables.keys
  noBuiltin : name ∉ Vocabulary.builtinVariables
  noAchievement : ¬ (Opened reports "check_achievements" place ∧
    Vocabulary.NamesAchievement project.achievements.keys name)
  noParameter : ¬ (Opened reports "params" place ∧ Vocabulary.NamesParameter name)

instance (project : ProjectIndex) (isStartup : Bool) (reports : List Report) (name : String)
    (place : Position) : Decidable (UndefinedAt project isStartup reports name place) :=
  decidable_of_iff
    ((¬ ∃ report ∈ reports, report.createsLocal isStartup name) ∧
      name ∉ project.globalVariables.keys ∧ name ∉ Vocabulary.builtinVariables ∧
      ¬ (Opened reports "check_achievements" place ∧
        Vocabulary.NamesAchievement project.achievements.keys name) ∧
      ¬ (Opened reports "params" place ∧ Vocabulary.NamesParameter name))
    ⟨fun ⟨a, b, c, d, e⟩ => ⟨a, b, c, d, e⟩, fun ⟨a, b, c, d, e⟩ => ⟨a, b, c, d, e⟩⟩

namespace Document.Reads

variable {document : Document} {startupFile : String} {isStartup : Bool} {summary : Summary}
  {index : DocumentIndex}

/-- What a document mentions is a word that stands in the document. -/
theorem mention_placed (reads : document.Reads startupFile isStartup summary index)
    {mention : Mention} (member : mention ∈ Source.mentions ⟨document, startupFile⟩) :
    (∀ c ∈ mention.name.toList, Text.isWord c = true) ∧
      mention.location.range.stop ≤ document.endPosition := by
  obtain ⟨report, said, same⟩ := List.mem_filterMap.1 member
  unfold Report.mention? at same
  split at same
  · rename_i name location place
    obtain rfl := Option.some.inj same
    change _ ∈ Source.stream _ at said
    obtain ⟨named, -⟩ := (Source.tidy_stream _).fits said
    obtain ⟨reports, read, -⟩ := reads.summed
    rw [← Source.reports_eq_ok read] at said
    have quotes : document.Quotes location name.toList := Source.reports_truthful read _ said
    obtain ⟨start, stop, -, -, -, last⟩ := quotes.covers
    exact ⟨named, last ▸ document.positionAt_le_endPosition _⟩
  · cases same

/-- The achievements that a document creates have names. -/
theorem achievements_named (reads : document.Reads startupFile isStartup summary index) :
    ∀ codename ∈ summary.achievements.keys, codename ≠ "" := by
  intro codename member
  rw [reads.summary_eq] at member
  obtain ⟨report, said, creates⟩ := Summary.mem_achievements_ofReports.1 member
  unfold Report.createsAchievement at creates
  split at creates
  · obtain rfl := of_decide_eq_true creates
    exact ((Source.tidy_stream _).fits said).1
  · cases creates

end Document.Reads

namespace ProjectIndex

variable {project : ProjectIndex} {document : Document} {isStartup : Bool} {summary : Summary}
  {name : String} {range : Range}

/-- The rule for the use of variables finds a name undefined just where nothing defines it. -/
theorem undefinedAt_iff (named : ∀ codename ∈ project.achievements.keys, codename ≠ "")
    (reads : document.Reads project.startupFile isStartup summary (project.document document.uri))
    (word : ∀ c ∈ name.toList, Text.isWord c = true) (inside : range.stop ≤ document.endPosition) :
    Rule.Unknown (.of document project) name ∧
        Rule.excuses (.of document project) name range = false ↔
      UndefinedAt project isStartup (Source.stream ⟨document, project.startupFile⟩) name
        range.start := by
  obtain ⟨achievementScope, paramScope⟩ := reads.any_scope_iff inside
  have excused : Rule.excuses (.of document project) name range = true ↔
      (Opened (Source.stream ⟨document, project.startupFile⟩) "check_achievements" range.start ∧
          Vocabulary.NamesAchievement project.achievements.keys name) ∨
        (Opened (Source.stream ⟨document, project.startupFile⟩) "params" range.start ∧
          Vocabulary.NamesParameter name) := by
    simp only [Rule.excuses, Bool.or_eq_true, Bool.and_eq_true]
    exact or_congr (and_congr achievementScope (Vocabulary.isAchievementVariable_iff named word))
      (and_congr paramScope Vocabulary.isParameterVariable_iff)
  rw [← Bool.not_eq_true, excused, not_or, Rule.Unknown, Inspection.creation?_eq_none,
    reads.mem_localVariables]
  constructor
  · rintro ⟨⟨⟨noLocal, noGlobal⟩, noBuiltin⟩, noAchievement, noParameter⟩
    exact ⟨noLocal, noGlobal, noBuiltin, noAchievement, noParameter⟩
  · rintro ⟨noLocal, noGlobal, noBuiltin, noAchievement, noParameter⟩
    exact ⟨⟨⟨noLocal, noGlobal⟩, noBuiltin⟩, noAchievement, noParameter⟩

/-- Among the diagnostics of a check the undefined variables are those that one rule finds. -/
theorem undefined_of_check {diagnostics : List Diagnostic}
    (passed : project.check document Rule.defaults = .ok diagnostics)
    (reads : document.Reads project.startupFile isStartup summary (project.document document.uri)) :
    (∀ name range, diagnostics.count (Rule.undefinedError (Rule.searched isStartup) name range) =
      if Rule.Unknown (.of document project) name ∧
          Rule.excuses (.of document project) name range = false then
        Source.timesMentioned ⟨document, project.startupFile⟩ name range else 0) ∧
    ∀ diagnostic ∈ diagnostics, diagnostic.code = Notice.undefinedVariable.code →
      ∃ name range, diagnostic = Rule.undefinedError (Rule.searched isStartup) name range := by
  obtain ⟨uses, usesRun, counts⟩ := count_check passed reads.errors_ofReading
  let inspection := Inspection.of document project
  have startup : inspection.index.isStartup inspection.document.uri = .ok isStartup := reads.startup
  constructor
  · intro name range
    rw [counts _ rfl, ← reads.countP_references]
    exact Rule.count_variableUse startup usesRun name range
  · intro diagnostic member code
    have isOf : diagnostic.isOf [.undefinedVariable, .usedBeforeCreation] = true := by
      simp [Diagnostic.isOf, code]
    have used : diagnostic ∈ uses := by
      rwa [← List.count_pos_iff, ← counts diagnostic isOf, List.count_pos_iff]
    exact Rule.exists_use_of_code startup usesRun used code

end ProjectIndex

namespace Workspace

variable {startupFile : String} {workspace : Workspace} {uri address : String} {document : Document}

/-- The achievements of a project have names. -/
theorem Coherent.achievements_named (coherent : workspace.Coherent) :
    ∀ codename ∈ workspace.index.achievements.keys, codename ≠ "" := by
  rcases coherent.tables with ownerless | ⟨owner, startup, open_, owned⟩
  · simp [ownerless.achievements]
  · obtain ⟨summary, index, reads, -, -, achievements⟩ := owned.read
    rw [achievements]
    exact reads.achievements_named

/-- In a reached workspace each use of a variable in an open document is found undefined as often as
the document mentions it, if nothing defines the name there, and not at all otherwise. No other error
says that a variable is undefined. -/
theorem undefined_uses_exact (reached : Reached startupFile workspace)
    (normal : Uri.normalize address = .ok uri)
    (open_ : workspace.documents.get? uri = some document) :
    ∃ isStartup diagnostics, Uri.isStartup startupFile document.uri = .ok isStartup ∧
      workspace.diagnostics address = .ok diagnostics ∧
      (∀ name range,
        (UndefinedAt workspace.index isStartup (Source.stream ⟨document, startupFile⟩) name
            range.start →
          diagnostics.count (Rule.undefinedError (Rule.searched isStartup) name range) =
            Source.timesMentioned ⟨document, startupFile⟩ name range) ∧
        (¬ UndefinedAt workspace.index isStartup (Source.stream ⟨document, startupFile⟩) name
            range.start →
          diagnostics.count (Rule.undefinedError (Rule.searched isStartup) name range) = 0)) ∧
      ∀ diagnostic ∈ diagnostics, diagnostic.code = Notice.undefinedVariable.code →
        ∃ name range, diagnostic = Rule.undefinedError (Rule.searched isStartup) name range := by
  obtain ⟨diagnostics, checked⟩ := reached.coherent.check_passes reached.normal open_
  obtain ⟨rfl, indexes⟩ := reached.coherent.documents uri document open_
  obtain ⟨isStartup, summary, reads⟩ := indexes.read
  have names : workspace.index.startupFile = startupFile := reached.names
  subst names
  obtain ⟨counts, others⟩ := ProjectIndex.undefined_of_check checked reads
  refine ⟨isStartup, diagnostics, reads.startup, (diagnostics_eq_check normal open_).trans checked,
    fun name range => ?_, others⟩
  rw [counts]
  by_cases mentioned : Source.timesMentioned ⟨document, workspace.index.startupFile⟩ name range = 0
  · simp [mentioned]
  · obtain ⟨mention, member, is⟩ := List.countP_pos_iff.1 (Nat.pos_of_ne_zero mentioned)
    obtain ⟨rfl, rfl⟩ := of_decide_eq_true is
    obtain ⟨word, inside⟩ := reads.mention_placed member
    have undefined := ProjectIndex.undefinedAt_iff reached.coherent.achievements_named reads word inside
    exact ⟨fun nothing => if_pos (undefined.2 nothing), fun something => if_neg (something ∘ undefined.1)⟩

/-- A scene that asks for an achievement before and after it reads the achievements. -/
def boasting : Document :=
  ⟨"file:///game/a.txt",
    "*if choice_achieved_rich\n*check_achievements\n*if choice_achieved_rich\n".toList, 0⟩

/-- A project with the achievement and the scene. -/
def achieving : Workspace :=
  (ofStartupFile "startup.txt").run
    [.update "file:///game/startup.txt" "*achievement rich visible 10 Rich!\n".toList,
      .update boasting.uri boasting.text]

/-- The first use is undefined, and the other is not. -/
theorem achieving_undefined_once : Reached "startup.txt" achieving ∧
    ∃ diagnostics, achieving.diagnostics boasting.uri = .ok diagnostics ∧
      diagnostics.count (Rule.undefinedError (Rule.searched false) "choice_achieved_rich"
        ⟨⟨0, 4⟩, ⟨0, 24⟩, by decide⟩) = 1 ∧
      diagnostics.count (Rule.undefinedError (Rule.searched false) "choice_achieved_rich"
        ⟨⟨2, 4⟩, ⟨2, 24⟩, by decide⟩) = 0 := by
  have reached : Reached "startup.txt" achieving := Reached.fresh.run (by decide +kernel)
  obtain ⟨normal, open_, plain, undefined, defined, once⟩ :
      Uri.normalize boasting.uri = .ok boasting.uri ∧
      achieving.documents.get? boasting.uri = some boasting ∧
      Uri.isStartup "startup.txt" boasting.uri = .ok false ∧
      UndefinedAt achieving.index false (Source.stream ⟨boasting, "startup.txt"⟩)
        "choice_achieved_rich" ⟨0, 4⟩ ∧
      ¬ UndefinedAt achieving.index false (Source.stream ⟨boasting, "startup.txt"⟩)
        "choice_achieved_rich" ⟨2, 4⟩ ∧
      Source.timesMentioned ⟨boasting, "startup.txt"⟩ "choice_achieved_rich"
        ⟨⟨0, 4⟩, ⟨0, 24⟩, by decide⟩ = 1 := by
    decide +kernel
  obtain ⟨isStartup, diagnostics, startup, found, counts, -⟩ :=
    undefined_uses_exact reached normal open_
  obtain rfl : false = isStartup := Except.ok.inj (plain.symm.trans startup)
  exact ⟨reached, diagnostics, found, ((counts _ _).1 undefined).trans once, (counts _ _).2 defined⟩

end Workspace

end ChoiceScript
