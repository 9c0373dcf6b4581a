import ChoiceScript.Proofs.Diagnostic.Sorting
import ChoiceScript.Proofs.Nesting.Basic
import ChoiceScript.Proofs.Rule.Passing

/-! # What kinds of errors a rule finds

Each rule finds errors of its own kinds only, whatever it looks at. So the errors of its kinds among
the diagnostics of a document are those that the rule finds.
-/

namespace ChoiceScript

/-- Is an error of one of some kinds? -/
def Diagnostic.isOf (kinds : List Notice) (diagnostic : Diagnostic) : Bool :=
  kinds.any (·.code = diagnostic.code)

namespace Rule

/-- All errors in a list are of some kinds. -/
def OfKinds (kinds : List Notice) (found : List Diagnostic) : Prop :=
  ∀ diagnostic ∈ found, ∃ notice ∈ kinds, notice.Makes diagnostic

/-- A rule finds errors of some kinds only. -/
def FindsOnly (rule : Rule) (kinds : List Notice) : Prop :=
  ∀ inspection found, rule.run inspection = .ok found → OfKinds kinds found

variable {kinds : List Notice} {inspection : Inspection} {found : List Diagnostic}

theorem ofKinds_nil : OfKinds kinds [] := by simp [OfKinds]

theorem ofKinds_single {notice : Notice} {diagnostic : Diagnostic} (known : notice ∈ kinds)
    (makes : notice.Makes diagnostic) : OfKinds kinds [diagnostic] := by
  intro other member
  obtain rfl := List.mem_singleton.1 member
  exact ⟨notice, known, makes⟩

/-- What is found for the members of a list is of the kinds that are found for each. -/
theorem ofKinds_flatten {α : Type} {step : α → Except Fault (List Diagnostic)} {list : List α}
    {lists : List (List Diagnostic)} (passed : list.mapM step = .ok lists)
    (each : ∀ member found, step member = .ok found → OfKinds kinds found) :
    OfKinds kinds lists.flatten := by
  intro diagnostic member
  obtain ⟨part, among, inside⟩ := List.mem_flatten.1 member
  obtain ⟨origin, -, made⟩ := (Outcome.mem_mapM passed).1 among
  exact each origin part made diagnostic inside

/-- What one notice is made of is of its kind. -/
theorem ofKinds_mapM {α : Type} {notice : Notice} {step : α → Except Fault Diagnostic} {list : List α}
    (passed : list.mapM step = .ok found) (known : notice ∈ kinds)
    (each : ∀ member diagnostic, step member = .ok diagnostic → notice.Makes diagnostic) :
    OfKinds kinds found := by
  intro diagnostic member
  obtain ⟨origin, -, made⟩ := (Outcome.mem_mapM passed).1 member
  exact ⟨notice, known, each origin diagnostic made⟩

theorem ofKinds_labelDiagnostics {label uri : String} {location : Location}
    (known : Notice.labelNotFound ∈ kinds)
    (passed : labelDiagnostics inspection label uri location = .ok found) : OfKinds kinds found := by
  unfold labelDiagnostics at passed
  split at passed
  · obtain rfl := Except.ok.inj passed
    exact ofKinds_nil
  · obtain ⟨file, -, rest⟩ := Outcome.bind_eq_ok passed
    obtain ⟨diagnostic, made, same⟩ := Outcome.bind_eq_ok rest
    obtain rfl := Except.ok.inj same
    exact ofKinds_single known ⟨_, _, made⟩

theorem ofKinds_checkedLabel {event : FlowEvent} {file? : Except Fault (Option String)}
    (known : Notice.labelNotFound ∈ kinds)
    (passed : checkedLabel inspection event file? = .ok found) : OfKinds kinds found := by
  unfold checkedLabel at passed
  split at passed
  · obtain rfl := Except.ok.inj passed
    exact ofKinds_nil
  · split at passed
    · obtain rfl := Except.ok.inj passed
      exact ofKinds_nil
    · obtain ⟨file, -, rest⟩ := Outcome.bind_eq_ok passed
      split at rest
      · obtain rfl := Except.ok.inj rest
        exact ofKinds_nil
      · exact ofKinds_labelDiagnostics known rest

theorem ofKinds_jumpDiagnostics {event : FlowEvent}
    (passed : jumpDiagnostics inspection event = .ok found) :
    OfKinds [.labelNotFound, .sceneNotFound] found := by
  unfold jumpDiagnostics at passed
  split at passed
  · split at passed
    · exact ofKinds_checkedLabel (by simp) passed
    split at passed
    · obtain rfl := Except.ok.inj passed
      exact ofKinds_nil
    split at passed
    · obtain ⟨diagnostic, made, same⟩ := Outcome.bind_eq_ok passed
      obtain rfl := Except.ok.inj same
      exact ofKinds_single (List.mem_cons_of_mem _ List.mem_cons_self) ⟨_, _, made⟩
    · exact ofKinds_checkedLabel (by simp) passed
  · exact ofKinds_checkedLabel (by simp) passed

theorem jumps_findsOnly : jumps.FindsOnly [.labelNotFound, .sceneNotFound] := by
  intro inspection found passed
  obtain ⟨lists, judged, same⟩ := Outcome.bind_eq_ok passed
  obtain rfl := Except.ok.inj same
  exact ofKinds_flatten judged fun _ _ => ofKinds_jumpDiagnostics

theorem placement_findsOnly : placement.FindsOnly [.commandNotOnOwnLine] := by
  intro inspection found passed
  exact ofKinds_mapM passed List.mem_cons_self fun _ _ => Notice.makes_of_between

theorem punctuation_findsOnly : punctuation.FindsOnly [.styleGuide] := by
  intro inspection found passed
  exact ofKinds_mapM passed List.mem_cons_self fun _ _ => Notice.makes_of_between

theorem ofKinds_variableDiagnostics {place name : String} {locations : List Location}
    (passed : variableDiagnostics inspection place name locations = .ok found) :
    OfKinds [.undefinedVariable, .usedBeforeCreation] found := by
  unfold variableDiagnostics at passed
  split at passed
  · exact ofKinds_mapM passed (List.mem_cons_of_mem _ List.mem_cons_self) fun _ _ made => ⟨_, _, made⟩
  · split at passed
    · obtain rfl := Except.ok.inj passed
      exact ofKinds_nil
    · exact ofKinds_mapM passed List.mem_cons_self fun _ _ made => ⟨_, _, made⟩

theorem variableUse_findsOnly : variableUse.FindsOnly [.undefinedVariable, .usedBeforeCreation] := by
  intro inspection found passed
  obtain ⟨isStartup, -, rest⟩ := Outcome.bind_eq_ok passed
  obtain ⟨lists, judged, same⟩ := Outcome.bind_eq_ok rest
  obtain rfl := Except.ok.inj same
  exact ofKinds_flatten judged fun _ _ => ofKinds_variableDiagnostics

/-- What is of some kinds is all that there is of them. -/
theorem OfKinds.filter_isOf (ofKinds : OfKinds kinds found) :
    found.filter (Diagnostic.isOf kinds) = found := by
  refine List.filter_eq_self.2 fun diagnostic member => ?_
  obtain ⟨notice, known, makes⟩ := ofKinds diagnostic member
  exact List.any_eq_true.2 ⟨notice, known, decide_eq_true makes.code.symm⟩

/-- What is of some kinds is of no other kind. -/
theorem OfKinds.filter_isOf_others {others : List Notice} (ofKinds : OfKinds kinds found)
    (apart : ∀ known ∈ kinds, ∀ other ∈ others, known.code ≠ other.code) :
    found.filter (Diagnostic.isOf others) = [] := by
  refine List.filter_eq_nil_iff.2 fun diagnostic member isOf => ?_
  obtain ⟨known, among, makes⟩ := ofKinds diagnostic member
  obtain ⟨other, wanted, same⟩ := List.any_eq_true.1 isOf
  exact apart known among other wanted (makes.code.symm.trans (of_decide_eq_true same).symm)

/-- Errors of reading are of no kind that a rule finds. -/
theorem filter_isOf_ofReading (reading : ∀ diagnostic ∈ found, diagnostic.OfReading)
    (ruled : ∀ notice ∈ kinds, notice ∈ Notice.catalogue ∧ ¬ notice.OfReading) :
    found.filter (Diagnostic.isOf kinds) = [] := by
  refine List.filter_eq_nil_iff.2 fun diagnostic member isOf => ?_
  obtain ⟨notice, wanted, same⟩ := List.any_eq_true.1 isOf
  obtain ⟨source, ofReading, makes⟩ := reading diagnostic member
  obtain ⟨listed, unread⟩ := ruled notice wanted
  refine unread ⟨?_, listed⟩
  rw [of_decide_eq_true same, makes.code]
  exact ofReading.1

end Rule

namespace ProjectIndex

variable {index : ProjectIndex} {document : Document} {diagnostics : List Diagnostic}

/-- The jumps that lead nowhere are found by one rule and the faulty uses of variables by another. -/
theorem found_of_check (passed : index.check document Rule.defaults = .ok diagnostics)
    (reading : ∀ diagnostic ∈ (index.document document.uri).errors, diagnostic.OfReading) :
    ∃ jumps uses, Rule.jumps.run (.of document index) = .ok jumps ∧
      Rule.variableUse.run (.of document index) = .ok uses ∧
      (diagnostics.filter (Diagnostic.isOf [.labelNotFound, .sceneNotFound])).Perm jumps ∧
      (diagnostics.filter (Diagnostic.isOf [.undefinedVariable, .usedBeforeCreation])).Perm uses := by
  obtain ⟨jumps, uses, placed, marks, jumpsRun, usesRun, placedRun, marksRun, rfl⟩ :=
    check_eq_ok passed
  have jumpKinds := Rule.jumps_findsOnly _ _ jumpsRun
  have useKinds := Rule.variableUse_findsOnly _ _ usesRun
  have left : ∀ kinds : List Notice,
      (∀ notice ∈ kinds, notice ∈ Notice.catalogue ∧ ¬ notice.OfReading) →
      (∀ known ∈ [Notice.commandNotOnOwnLine], ∀ other ∈ kinds, known.code ≠ other.code) →
      (∀ known ∈ [Notice.styleGuide], ∀ other ∈ kinds, known.code ≠ other.code) →
      ((Diagnostic.sort ((index.document document.uri).errors ++
        [jumps, uses, placed, marks].flatten)).filter (Diagnostic.isOf kinds)).Perm
        (jumps.filter (Diagnostic.isOf kinds) ++ uses.filter (Diagnostic.isOf kinds)) := by
    intro kinds ruled notPlaced noMark
    refine ((Diagnostic.sort_perm _).filter _).trans (.of_eq ?_)
    simp only [List.filter_append, List.flatten_cons, List.flatten_nil, List.append_nil,
      Rule.filter_isOf_ofReading reading ruled,
      (Rule.placement_findsOnly _ _ placedRun).filter_isOf_others notPlaced,
      (Rule.punctuation_findsOnly _ _ marksRun).filter_isOf_others noMark, List.nil_append]
  refine ⟨jumps, uses, jumpsRun, usesRun, ?_, ?_⟩
  · have found := left [.labelNotFound, .sceneNotFound] (by decide) (by decide) (by decide)
    rwa [jumpKinds.filter_isOf, useKinds.filter_isOf_others (by decide), List.append_nil] at found
  · have found := left [.undefinedVariable, .usedBeforeCreation] (by decide) (by decide) (by decide)
    rwa [jumpKinds.filter_isOf_others (by decide), useKinds.filter_isOf, List.nil_append] at found

/-- Neither reading nor any other rule finds a faulty use of a variable. -/
theorem count_check (passed : index.check document Rule.defaults = .ok diagnostics)
    (reading : ∀ diagnostic ∈ (index.document document.uri).errors, diagnostic.OfReading) :
    ∃ uses, Rule.variableUse.run (.of document index) = .ok uses ∧
      ∀ diagnostic, diagnostic.isOf [.undefinedVariable, .usedBeforeCreation] = true →
        diagnostics.count diagnostic = uses.count diagnostic := by
  obtain ⟨-, uses, -, usesRun, -, perm⟩ := found_of_check passed reading
  exact ⟨uses, usesRun, fun diagnostic isOf => by rw [← perm.count_eq, List.count_filter isOf]⟩

end ProjectIndex

end ChoiceScript
