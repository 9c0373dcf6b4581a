import ChoiceScript.Index.Project
import ChoiceScript.Proofs.OrderedMap

/-! # Where the variables of subroutines count as created

Calls are taken one after another, and a variable counts as created where the first of them reaches a
subroutine that holds its creation. So the map of these places can be looked up without it.
-/

namespace ChoiceScript.ProjectIndex

/-- A call gives its place to the variables of its subroutine that have none. -/
theorem get?_addCall (created effective : Creations) (call label : Location) (exit : FlowEvent)
    (name : String) : (addCall created call label exit effective).get? name =
      (effective.get? name).or
        (((created.get? name).filter (subroutineHolds label exit)).map fun _ => call) := by
  let kept := created.entries.filter fun entry => subroutineHolds label exit entry.2
  have added : addCall created call label exit effective =
      effective.insertAll (kept.map fun entry => (entry.1, call)) := by
    simp only [addCall, OrderedMap.insertAll, kept, List.foldl_map, List.foldl_filter]
  have looked : ∀ entries : List (String × Location),
      (entries.map fun entry => (entry.1, call)).lookup name =
        (entries.lookup name).map fun _ => call := by
    intro entries
    induction entries with
    | nil => rfl
    | cons entry rest ih =>
        rw [List.map_cons, OrderedMap.lookup_cons, ih, OrderedMap.lookup_cons]
        split <;> rfl
  rw [added, OrderedMap.get?_insertAll, looked, OrderedMap.lookup_filter]

/-- Does a call reach a subroutine of its document that holds a location? -/
def callReaches (document : DocumentIndex) (location : Location) (call : FlowEvent) : Bool :=
  match document.labels.get? call.label with
  | none => false
  | some label =>
    match firstReturnAfter (document.flowEvents.filter (·.command = "return")) label with
    | none => false
    | some exit => subroutineHolds label exit location

theorem callReaches_iff {document : DocumentIndex} {location : Location} {call : FlowEvent} :
    callReaches document location call = true ↔ ∃ label exit,
      document.labels.get? call.label = some label ∧
      firstReturnAfter (document.flowEvents.filter (·.command = "return")) label = some exit ∧
      subroutineHolds label exit location = true := by
  unfold callReaches
  cases document.labels.get? call.label with
  | none => simp
  | some label =>
      cases exit : firstReturnAfter (document.flowEvents.filter (·.command = "return")) label with
      | none => simp [exit]
      | some event => simp [exit]

/-- Where the variables of subroutines count as created after one more call. -/
def afterCall (document : DocumentIndex) (effective : Creations) (call : FlowEvent) : Creations :=
  match document.labels.get? call.label with
  | none => effective
  | some label =>
    match firstReturnAfter (document.flowEvents.filter (·.command = "return")) label with
    | none => effective
    | some exit => addCall document.localVariables call.commandLocation label exit effective

theorem effectiveCreations_eq (index : ProjectIndex) (uri : String) :
    index.effectiveCreations uri = ((index.document uri).flowEvents.filter (·.command = "gosub")).foldl
      (afterCall (index.document uri)) ∅ := rfl

variable (document : DocumentIndex) (effective : Creations) (name : String)

theorem get?_afterCall (call : FlowEvent) : (afterCall document effective call).get? name =
    (effective.get? name).or ((document.localVariables.get? name).bind fun created =>
      if callReaches document created call then some call.commandLocation else none) := by
  unfold afterCall callReaches
  cases document.labels.get? call.label with
  | none => simp
  | some label =>
      rcases Option.eq_none_or_eq_some
        (firstReturnAfter (document.flowEvents.filter (·.command = "return")) label)
        with none | ⟨exit, found⟩
      · simp [none]
      · simp only [found, get?_addCall]
        cases document.localVariables.get? name with
        | none => simp
        | some created =>
            by_cases holds : subroutineHolds label exit created = true <;> simp [Option.filter, holds]

/-- After several calls the first one that reaches the creation of a variable counts. -/
theorem get?_afterCalls (calls : List FlowEvent) : (calls.foldl (afterCall document) effective).get? name =
    (effective.get? name).or ((document.localVariables.get? name).bind fun created =>
      (calls.find? (callReaches document created)).map (·.commandLocation)) := by
  induction calls generalizing effective with
  | nil => simp
  | cons call rest ih =>
      rw [List.foldl_cons, ih, get?_afterCall, Option.or_assoc]
      congr 1
      cases document.localVariables.get? name with
      | none => rfl
      | some created => by_cases reaches : callReaches document created call = true <;> simp [reaches]

/-- A variable of a file counts as created where the first call reaches its creation. -/
theorem get?_effectiveCreations (index : ProjectIndex) (uri name : String) :
    (index.effectiveCreations uri).get? name =
      ((index.document uri).localVariables.get? name).bind fun created =>
        ((index.document uri).flowEvents.find? fun call =>
          call.command = "gosub" ∧ callReaches (index.document uri) created call = true).map
            (·.commandLocation) := by
  rw [effectiveCreations_eq, get?_afterCalls]
  simp only [List.find?_filter, decide_eq_true_eq]
  rfl

end ChoiceScript.ProjectIndex
