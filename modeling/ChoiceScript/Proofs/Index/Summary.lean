import ChoiceScript.Index.Summary
import ChoiceScript.Proofs.OrderedMap
import ChoiceScript.Proofs.Parser.Truth

/-! # Summaries keep the truth

Taking in a truthful report keeps a summary faithful to its document, so the summary of truthful
reports is. Its document index can always be made, for scopes open inside the document.
-/

namespace ChoiceScript

namespace Document

/-- Each name stands in the document where the map says. -/
def QuotesAll (document : Document) (created : Creations) : Prop :=
  ∀ entry ∈ created.entries, document.Quotes entry.2 entry.1.toList

/-- Each name stands in the document at all the places that the map says. -/
def QuotesEach (document : Document) (references : References) : Prop :=
  ∀ entry ∈ references.entries, ∀ location ∈ entry.2, document.Quotes location entry.1.toList

variable {document : Document} {name : String} {location : Location}

theorem quotesAll_empty (document : Document) : document.QuotesAll ∅ := by
  intro _ member
  cases member

theorem quotesEach_empty (document : Document) : document.QuotesEach ∅ := by
  intro _ member
  cases member

theorem QuotesAll.insertNew {created : Creations} (quotes : document.QuotesAll created)
    (quoted : document.Quotes location name.toList) :
    document.QuotesAll (created.insertNew name location) :=
  OrderedMap.forall_insertNew quotes quoted

theorem QuotesEach.push {references : References} (quotes : document.QuotesEach references)
    (quoted : document.Quotes location name.toList) :
    document.QuotesEach (references.push name location) := by
  let holds (name : String) (location : Location) : Prop := document.Quotes location name.toList
  have kept : ∀ entry ∈ (references.push name location).entries, ∀ place ∈ entry.2,
      holds entry.1 place := OrderedMap.forall_push quotes quoted
  exact kept

end Document

/-- What an index says of a document is so. -/
structure DocumentIndex.Faithful (index : DocumentIndex) (document : Document) : Prop where
  localVariables : document.QuotesAll index.localVariables
  labels : document.QuotesAll index.labels
  references : document.QuotesEach index.references
  flowEvents : ∀ event ∈ index.flowEvents, event.Truthful document
  achievementReferences : document.QuotesEach index.achievementReferences
  scopes : ∀ range ∈ index.scopes.achievement ++ index.scopes.param, document.Covers range
  errors : ∀ diagnostic ∈ index.errors, document.Covers diagnostic.range

/-- What a summary says of a document is so. -/
structure Summary.Faithful (summary : Summary) (document : Document) : Prop where
  globalVariables : document.QuotesAll summary.globalVariables
  localVariables : document.QuotesAll summary.localVariables
  labels : document.QuotesAll summary.labels
  references : document.QuotesEach summary.references
  flowEvents : ∀ event ∈ summary.flowEvents, event.Truthful document
  achievements : document.QuotesAll summary.achievements
  achievementReferences : document.QuotesEach summary.achievementReferences
  scopes : ∀ start ∈ summary.achievementScopes ++ summary.paramScopes,
    ∃ offset : Int, start = document.positionAt offset
  errors : ∀ diagnostic ∈ summary.errors, document.Covers diagnostic.range

namespace Summary

variable {document : Document} {summary : Summary}

theorem faithful_empty (document : Document) : Faithful {} document where
  globalVariables := document.quotesAll_empty
  localVariables := document.quotesAll_empty
  labels := document.quotesAll_empty
  references := document.quotesEach_empty
  flowEvents := by simp
  achievements := document.quotesAll_empty
  achievementReferences := document.quotesEach_empty
  scopes := by simp
  errors := by simp

theorem Faithful.addSymbol {isStartup : Bool} {role : SymbolRole} {name : String}
    {location : Location} (faithful : summary.Faithful document)
    (quoted : document.Quotes location name.toList) :
    (summary.addSymbol isStartup role name location).Faithful document := by
  have created : Faithful
      { summary with localVariables := summary.localVariables.insertNew name location } document :=
    { faithful with localVariables := faithful.localVariables.insertNew quoted }
  cases role with
  | globalVariable =>
      simp only [Summary.addSymbol]
      split
      · exact { faithful with globalVariables := faithful.globalVariables.insertNew quoted }
      · exact created
  | localVariable => exact created
  | label => exact { faithful with labels := faithful.labels.insertNew quoted }
  | reference => exact { faithful with references := faithful.references.push quoted }
  | achievement => exact { faithful with achievements := faithful.achievements.insertNew quoted }
  | achieve =>
      exact { faithful with
        achievementReferences := faithful.achievementReferences.push quoted }

theorem Faithful.addCommand {name : String} {location : Location}
    (faithful : summary.Faithful document) (held : document.Holds location) :
    (summary.addCommand name location).Faithful document := by
  obtain ⟨start, stop, -, -, opens, -⟩ := held.covers
  have scopes := faithful.scopes
  have opened : ∃ offset : Int, location.range.start = document.positionAt offset := ⟨start, opens⟩
  unfold Summary.addCommand
  split
  · refine { faithful with scopes := fun position member => ?_ }
    simp only [List.mem_append, List.mem_singleton] at member scopes
    rcases member with (kept | rfl) | other
    · exact scopes position (.inl kept)
    · exact opened
    · exact scopes position (.inr other)
  · refine { faithful with scopes := fun position member => ?_ }
    simp only [List.mem_append, List.mem_singleton] at member scopes
    rcases member with other | kept | rfl
    · exact scopes position (.inl other)
    · exact scopes position (.inr kept)
    · exact opened
  · exact faithful

theorem Faithful.add {isStartup : Bool} {report : Report} (faithful : summary.Faithful document)
    (truthful : report.Truthful document) : (summary.add isStartup report).Faithful document := by
  unfold Summary.add
  split
  · refine { faithful with errors := fun diagnostic member => ?_ }
    rcases List.mem_append.1 member with kept | added
    · exact faithful.errors diagnostic kept
    · rw [List.mem_singleton.1 added]
      exact truthful
  · exact faithful.addCommand truthful.toHolds
  · exact faithful.addSymbol truthful
  · refine { faithful with flowEvents := fun event member => ?_ }
    rcases List.mem_append.1 member with kept | added
    · exact faithful.flowEvents event kept
    · rw [List.mem_singleton.1 added]
      exact truthful
  · exact { faithful with }

theorem ofReports_faithful {isStartup : Bool} {reports : List Report}
    (truthful : ∀ report ∈ reports, report.Truthful document) :
    (ofReports isStartup reports).Faithful document := by
  suffices ∀ summary, Faithful summary document →
      (reports.foldl (Summary.add isStartup) summary).Faithful document from
    this {} (faithful_empty document)
  induction reports with
  | nil => exact fun summary faithful => faithful
  | cons report rest ih =>
      intro summary faithful
      exact ih (fun other later => truthful other (by simp [later])) _
        (faithful.add (truthful report (by simp)))

/-- The document index of a faithful summary can be made and is faithful too. -/
theorem Faithful.documentIndex (faithful : summary.Faithful document) :
    ∃ index, summary.documentIndex document = .ok index ∧ index.Faithful document := by
  have toEnd : ∀ start ∈ summary.achievementScopes ++ summary.paramScopes,
      ∃ range, Range.between start document.endPosition = .ok range ∧ document.Covers range := by
    intro start member
    obtain ⟨offset, rfl⟩ := faithful.scopes start member
    have le := document.positionAt_le_endPosition offset
    refine ⟨⟨_, _, le⟩, by simp only [Range.between, le, dite_true], ?_⟩
    exact ⟨document.clamp offset, document.text.length, document.clamp_le offset, Nat.le_refl _,
      (document.positionAt_clamp offset).symm, rfl⟩
  obtain ⟨achievement, achievementMade, achievementCovers⟩ := Outcome.mapM_ok fun start member =>
    toEnd start (List.mem_append_left summary.paramScopes member)
  obtain ⟨param, paramMade, paramCovers⟩ := Outcome.mapM_ok fun start member =>
    toEnd start (List.mem_append_right summary.achievementScopes member)
  simp only [Summary.documentIndex, achievementMade, paramMade, Outcome.bind_ok, Outcome.pure_eq]
  refine ⟨_, rfl, { faithful with scopes := fun range member => ?_ }⟩
  exact (List.mem_append.1 member).elim (achievementCovers range) (paramCovers range)

end Summary

end ChoiceScript
