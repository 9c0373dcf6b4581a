import ChoiceScript.Proofs.Diagnostic.Rendering
import ChoiceScript.Proofs.Index.Subroutine
import ChoiceScript.Proofs.OrderedMap
import ChoiceScript.Workspace

/-! # Which uses of variables are undefined

A use of a variable is found undefined by its name and its range alone: the variable is created
nowhere, is not built in, and no scope around the use allows it. So the rule finds each use of a name
as often as the index holds it, or not at all.
-/

namespace ChoiceScript

namespace Vocabulary

theorem afterWord?_eq_some {word name : String} {rest : Text} :
    afterWord? word name = some rest ↔ name = word ++ String.ofList rest := by
  unfold afterWord?
  rw [← String.toList_inj, String.toList_append, String.toList_ofList]
  constructor
  · intro found
    split at found
    · rename_i start
      obtain ⟨tail, same⟩ := List.isPrefixOf_iff_prefix.1 start
      rw [← same, ← String.length_toList, List.drop_left] at found
      rw [← same, Option.some.inj found]
    · cases found
  · intro same
    rw [same, ← String.length_toList, List.drop_left]
    simp

/-- A name is that of the variable for an achievement. -/
def NamesAchievement (codenames : List String) (name : String) : Prop :=
  ∃ codename ∈ codenames, name = "choice_achieved_" ++ codename

/-- A name is that of the variable for a numbered parameter. -/
def NamesParameter (name : String) : Prop :=
  ∃ number : Text, number ≠ [] ∧ (∀ c ∈ number, Text.isDecimal c = true) ∧
    name = "param_" ++ String.ofList number

instance (codenames : List String) (name : String) : Decidable (NamesAchievement codenames name) :=
  inferInstanceAs (Decidable (∃ _ ∈ codenames, _))

/-- Names of variables are words, so an achievement whose name is no word has no variable. -/
theorem isAchievementVariable_iff {codenames : List String} {name : String}
    (named : ∀ codename ∈ codenames, codename ≠ "")
    (word : ∀ c ∈ name.toList, Text.isWord c = true) :
    isAchievementVariable codenames name = true ↔ NamesAchievement codenames name := by
  unfold isAchievementVariable
  constructor
  · intro isVariable
    split at isVariable
    · rename_i codename found
      simp only [Bool.and_eq_true, List.contains_iff_mem] at isVariable
      exact ⟨String.ofList codename, isVariable.2, afterWord?_eq_some.1 found⟩
    · cases isVariable
  · rintro ⟨codename, member, same⟩
    have found : afterWord? "choice_achieved_" name = some codename.toList := by
      rw [afterWord?_eq_some, same, String.ofList_toList]
    have nonempty : codename.toList ≠ [] := by
      simpa using named codename member
    have wordEnd : ∀ c ∈ codename.toList, Text.isWord c = true := by
      intro c inside
      exact word c (by simp [same, inside])
    simpa [found, nonempty, member] using wordEnd

theorem isParameterVariable_iff {name : String} :
    isParameterVariable name = true ↔ NamesParameter name := by
  unfold isParameterVariable
  constructor
  · intro isVariable
    split at isVariable
    · rename_i number found
      simp only [Bool.and_eq_true, decide_eq_true_eq, List.all_eq_true] at isVariable
      exact ⟨number, isVariable.1, isVariable.2, afterWord?_eq_some.1 found⟩
    · cases isVariable
  · rintro ⟨number, nonempty, digits, same⟩
    rw [afterWord?_eq_some.2 same]
    simpa [nonempty] using digits

instance (name : String) : Decidable (NamesParameter name) :=
  decidable_of_iff _ isParameterVariable_iff

end Vocabulary

/-- A variable that no subroutine, file or project creates is created neither in its file nor for the
project. -/
theorem Inspection.creation?_eq_none {document : Document} {index : ProjectIndex} {name : String} :
    (Inspection.of document index).creation? name = none ↔
      name ∉ (index.document document.uri).localVariables.keys ∧
        name ∉ index.globalVariables.keys := by
  have inSubroutine : (index.document document.uri).localVariables.get? name = none →
      (index.effectiveCreations document.uri).get? name = none := by
    intro absent
    rw [ProjectIndex.get?_effectiveCreations, absent, Option.bind_none]
  simp only [creation?, Option.or_eq_none_iff, ← OrderedMap.get?_eq_none]
  constructor
  · rintro ⟨⟨-, inFile⟩, inProject⟩
    exact ⟨inFile, inProject⟩
  · rintro ⟨inFile, inProject⟩
    exact ⟨⟨inSubroutine inFile, inFile⟩, inProject⟩

/-- What is found for the entries of a map one after another, and belongs to one name only, is found
for the entry of that name. -/
theorem OrderedMap.count_flatten {α β : Type} [DecidableEq β] {map : OrderedMap α}
    {step : String × α → Except Fault (List β)} {found : List (List β)}
    (passed : map.entries.mapM step = .ok found) {wanted : β} {name : String} {amount : α → Nat}
    (each : ∀ entry list, step entry = .ok list →
      list.count wanted = if entry.1 = name then amount entry.2 else 0) :
    found.flatten.count wanted = ((map.get? name).map amount).getD 0 := by
  obtain ⟨entries, nodup⟩ := map
  simp only [get?] at passed ⊢
  induction entries generalizing found with
  | nil =>
      obtain rfl := Except.ok.inj passed
      rfl
  | cons entry rest ih =>
      obtain ⟨first, value⟩ := entry
      obtain ⟨absent, later⟩ := List.nodup_cons.1 nodup
      obtain ⟨head, tail, made, others, rfl⟩ := Outcome.mapM_cons_eq_ok passed
      rw [List.flatten_cons, List.count_append, each _ _ made, ih later others, lookup_cons]
      by_cases here : first = name
      · subst here
        simp [lookup_eq_none absent]
      · have there : ¬ name = first := fun same => here same.symm
        simp [here, there]

namespace Rule

/-- The error that a variable is not defined, where it is used. -/
def undefinedError (place name : String) (range : Range) : Diagnostic where
  code := Notice.undefinedVariable.code
  message := "Variable \"" ++ name ++ "\" not defined " ++ place
  range
  severity := Notice.undefinedVariable.severity
  hint := Notice.undefinedVariable.hint
  category := some Notice.undefinedVariable.category

theorem onRange_undefined (place name : String) (range : Range) :
    Notice.undefinedVariable.onRange range [("variable", name), ("where", place)] =
      .ok (undefinedError place name range) := rfl

/-- An error tells the name and the range of its use. -/
theorem undefinedError_inj {place name other : String} {range elsewhere : Range} :
    undefinedError place name range = undefinedError place other elsewhere ↔
      name = other ∧ range = elsewhere := by
  simp [undefinedError]

variable {inspection : Inspection}

/-- Does a scope around a range allow the use of a name there? -/
def excuses (inspection : Inspection) (name : String) (range : Range) : Bool :=
  inspection.documentIndex.scopes.achievement.any (·.contains range) &&
      Vocabulary.isAchievementVariable inspection.index.achievements.keys name ||
    inspection.documentIndex.scopes.param.any (·.contains range) && Vocabulary.isParameterVariable name

theorem undefinedUses_eq (name : String) (locations : List Location) :
    undefinedUses inspection name locations =
      locations.filter fun location => !excuses inspection name location.range := by
  have narrowed : ∀ (scopes : List Range) (known : Bool) (uses : List Location),
      (uses.filter fun location => !(scopes.any (·.contains location.range) && known)) =
        if scopes ≠ [] && known then outside scopes uses else uses := by
    intro scopes known uses
    cases known with
    | false => simp
    | true =>
        cases scopes with
        | nil => simp
        | cons first rest => simp [outside]
  unfold undefinedUses
  dsimp only
  rw [← narrowed, ← narrowed, List.filter_filter]
  apply List.filter_congr
  intro location _
  simp [excuses, Bool.and_comm]

/-- Is a name neither created anywhere nor built in? -/
def Unknown (inspection : Inspection) (name : String) : Prop :=
  inspection.creation? name = none ∧ name ∉ Vocabulary.builtinVariables

instance (name : String) : Decidable (Unknown inspection name) := inferInstanceAs (Decidable (_ ∧ _))

/-- The error for a name and a range is found for each use of the name there. -/
theorem count_variableDiagnostics {place name use : String} {range : Range} {locations : List Location}
    {found : List Diagnostic} (passed : variableDiagnostics inspection place use locations = .ok found) :
    found.count (undefinedError place name range) =
      if use = name ∧ Unknown inspection name ∧ excuses inspection name range = false then
        locations.countP (·.range = range) else 0 := by
  unfold variableDiagnostics at passed
  split at passed
  · rename_i creation created
    have other : undefinedError place name range ∉ found := by
      intro member
      obtain ⟨location, -, made⟩ := (Outcome.mem_mapM passed).1 member
      have apart : Notice.undefinedVariable.code ≠ Notice.usedBeforeCreation.code := by decide
      exact apart (Notice.code_of_onRange made)
    rw [List.count_eq_zero.2 other, if_neg]
    rintro ⟨rfl, ⟨none, -⟩, -⟩
    rw [created] at none
    cases none
  · rename_i created
    split at passed
    · rename_i builtin
      obtain rfl := Except.ok.inj passed
      rw [List.count_nil, if_neg]
      rintro ⟨rfl, ⟨-, unknown⟩, -⟩
      exact unknown (by simpa using builtin)
    · rename_i unknown
      rw [undefinedUses_eq, Outcome.mapM_eq fun location _ => onRange_undefined _ _ _] at passed
      obtain rfl := Except.ok.inj passed
      rw [List.count, List.countP_map, List.countP_filter]
      split
      · rename_i judged
        obtain ⟨rfl, -, outside⟩ := judged
        apply List.countP_congr
        intro location _
        by_cases same : location.range = range <;> simp [undefinedError_inj, same, outside]
      · rename_i judged
        rw [List.countP_eq_zero]
        intro location _ here
        simp only [Function.comp_apply, beq_iff_eq, undefinedError_inj, Bool.and_eq_true,
          Bool.not_eq_true'] at here
        obtain ⟨⟨rfl, rfl⟩, outside⟩ := here
        exact judged ⟨rfl, ⟨created, by simpa using unknown⟩, outside⟩

/-- Where a variable is looked for. -/
def searched (isStartup : Bool) : String :=
  if isStartup then "in this file" else "in this file or startup.txt"

theorem variableUse_eq_ok {isStartup : Bool} {found : List Diagnostic}
    (startup : inspection.index.isStartup inspection.document.uri = .ok isStartup)
    (passed : variableUse.run inspection = .ok found) : ∃ lists, found = lists.flatten ∧
      (inspection.documentIndex.references.entries.mapM fun (name, locations) =>
        variableDiagnostics inspection (searched isStartup) name locations) = .ok lists := by
  obtain ⟨told, again, rest⟩ := Outcome.bind_eq_ok passed
  obtain rfl : isStartup = told := Except.ok.inj (startup.symm.trans again)
  obtain ⟨lists, judged, same⟩ := Outcome.bind_eq_ok rest
  exact ⟨lists, (Except.ok.inj same).symm, judged⟩

/-- An error that belongs to the uses of one name is found as often as those uses give it. -/
theorem count_of_variableUse {isStartup : Bool} {found : List Diagnostic} {wanted : Diagnostic}
    {name : String} {amount : List Location → Nat} (nothing : amount [] = 0)
    (startup : inspection.index.isStartup inspection.document.uri = .ok isStartup)
    (passed : variableUse.run inspection = .ok found)
    (each : ∀ use locations list,
      variableDiagnostics inspection (searched isStartup) use locations = .ok list →
        list.count wanted = if use = name then amount locations else 0) :
    found.count wanted = amount ((inspection.documentIndex.references.get? name).getD []) := by
  obtain ⟨lists, rfl, judged⟩ := variableUse_eq_ok startup passed
  rw [OrderedMap.count_flatten judged fun entry list => each entry.1 entry.2 list]
  cases inspection.documentIndex.references.get? name with
  | none => exact nothing.symm
  | some locations => rfl

/-- A use of a name is found undefined once for each time that it stands in the index. -/
theorem count_variableUse {isStartup : Bool} {found : List Diagnostic}
    (startup : inspection.index.isStartup inspection.document.uri = .ok isStartup)
    (passed : variableUse.run inspection = .ok found) (name : String) (range : Range) :
    found.count (undefinedError (searched isStartup) name range) =
      if Unknown inspection name ∧ excuses inspection name range = false then
        ((inspection.documentIndex.references.get? name).getD []).countP (·.range = range) else 0 := by
  let amount (locations : List Location) : Nat :=
    if Unknown inspection name ∧ excuses inspection name range = false then
      locations.countP (·.range = range) else 0
  have nothing : amount [] = 0 := by simp [amount]
  refine count_of_variableUse nothing startup passed fun use locations list made => ?_
  rw [count_variableDiagnostics made]
  by_cases same : use = name <;> simp [same, amount]

/-- Every error with this code is of a use. -/
theorem exists_use_of_code {isStartup : Bool} {found : List Diagnostic} {diagnostic : Diagnostic}
    (startup : inspection.index.isStartup inspection.document.uri = .ok isStartup)
    (passed : variableUse.run inspection = .ok found) (member : diagnostic ∈ found)
    (code : diagnostic.code = Notice.undefinedVariable.code) :
    ∃ name range, diagnostic = undefinedError (searched isStartup) name range := by
  obtain ⟨lists, rfl, judged⟩ := variableUse_eq_ok startup passed
  obtain ⟨list, among, inside⟩ := List.mem_flatten.1 member
  obtain ⟨⟨name, locations⟩, -, made⟩ := (Outcome.mem_mapM judged).1 among
  simp only [variableDiagnostics] at made
  split at made
  · obtain ⟨location, -, early⟩ := (Outcome.mem_mapM made).1 inside
    have apart : Notice.usedBeforeCreation.code ≠ Notice.undefinedVariable.code := by decide
    exact absurd ((Notice.code_of_onRange early).symm.trans code) apart
  · split at made
    · obtain rfl := Except.ok.inj made
      cases inside
    · obtain ⟨location, -, undefined⟩ := (Outcome.mem_mapM made).1 inside
      exact ⟨name, location.range, (Except.ok.inj undefined).symm⟩

end Rule

end ChoiceScript
