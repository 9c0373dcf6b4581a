import ChoiceScript.Fault

/-! # Outcomes

An outcome is a value or a fault. Steps one after another give a value when each does, and so does a
step that is taken for every member of a list.
-/

namespace ChoiceScript

namespace Outcome

variable {α β : Type}

@[simp] theorem bind_ok (value : α) (next : α → Except Fault β) :
    (Except.ok value >>= next) = next value := rfl

@[simp] theorem bind_error (fault : Fault) (next : α → Except Fault β) :
    (Except.error fault >>= next) = .error fault := rfl

@[simp] theorem pure_eq (value : α) : (pure value : Except Fault α) = .ok value := rfl

theorem bind_eq_ok {first : Except Fault α} {next : α → Except Fault β} {result : β}
    (passed : (first >>= next) = .ok result) : ∃ value, first = .ok value ∧ next value = .ok result := by
  cases first with
  | error fault => cases passed
  | ok value => exact ⟨value, rfl, passed⟩

theorem bind_passes {first : Except Fault α} {next : α → Except Fault β}
    (passes : ∃ value, first = .ok value) (more : ∀ value, ∃ result, next value = .ok result) :
    ∃ result, (first >>= next) = .ok result := by
  obtain ⟨value, rfl⟩ := passes
  exact more value

/-- A step that passes for every member passes for the list, and what holds of each value holds of
all. -/
theorem mapM_ok {step : α → Except Fault β} {list : List α} {holds : β → Prop}
    (each : ∀ member ∈ list, ∃ value, step member = .ok value ∧ holds value) :
    ∃ values, list.mapM step = .ok values ∧ ∀ value ∈ values, holds value := by
  induction list with
  | nil => exact ⟨[], rfl, by simp⟩
  | cons first rest ih =>
      obtain ⟨value, passed, held⟩ := each first (by simp)
      obtain ⟨values, others, allHeld⟩ := ih fun member later => each member (by simp [later])
      refine ⟨value :: values, by rw [List.mapM_cons, passed, bind_ok, others]; rfl, ?_⟩
      intro result member
      rcases List.mem_cons.1 member with rfl | later
      · exact held
      · exact allHeld result later

/-- A step that passes for every member gives the list of its values. -/
theorem mapM_eq {step : α → Except Fault β} {list : List α} {value : α → β}
    (each : ∀ member ∈ list, step member = .ok (value member)) :
    list.mapM step = .ok (list.map value) := by
  induction list with
  | nil => rfl
  | cons first rest ih =>
      rw [List.mapM_cons, each first (by simp), bind_ok, ih fun member later => each member (by simp [later])]
      rfl

theorem mapM_cons_eq_ok {step : α → Except Fault β} {first : α} {rest : List α} {values : List β}
    (passed : (first :: rest).mapM step = .ok values) :
    ∃ value others, step first = .ok value ∧ rest.mapM step = .ok others ∧ values = value :: others := by
  rw [List.mapM_cons] at passed
  obtain ⟨value, made, more⟩ := bind_eq_ok passed
  obtain ⟨others, later, same⟩ := bind_eq_ok more
  exact ⟨value, others, made, later, (Except.ok.inj same).symm⟩

/-- The values are those that the step gives for the members. -/
theorem mem_mapM {step : α → Except Fault β} {list : List α} {values : List β}
    (passed : list.mapM step = .ok values) {value : β} :
    value ∈ values ↔ ∃ member ∈ list, step member = .ok value := by
  induction list generalizing values with
  | nil =>
      obtain rfl := Except.ok.inj passed
      simp
  | cons first rest ih =>
      obtain ⟨head, tail, made, later, rfl⟩ := mapM_cons_eq_ok passed
      simp [ih later, made, eq_comm]

/-- What holds between the values that two members in order have holds between the values in order. -/
theorem pairwise_mapM {step : α → Except Fault β} {related : β → β → Prop} {list : List α} {values : List β}
    (passed : list.mapM step = .ok values)
    (pairwise : list.Pairwise fun a b => ∀ x y, step a = .ok x → step b = .ok y → related x y) :
    values.Pairwise related := by
  induction list generalizing values with
  | nil =>
      obtain rfl := Except.ok.inj passed
      exact .nil
  | cons first rest ih =>
      obtain ⟨ahead, later⟩ := List.pairwise_cons.1 pairwise
      obtain ⟨value, others, here, behind, rfl⟩ := mapM_cons_eq_ok passed
      refine .cons (fun other member => ?_) (ih behind later)
      obtain ⟨second, present, there⟩ := (mem_mapM behind).1 member
      exact ahead second present value other here there

theorem mapM_congr {step other : α → Except Fault β} {list : List α}
    (same : ∀ member ∈ list, step member = other member) : list.mapM step = list.mapM other := by
  induction list with
  | nil => rfl
  | cons first rest ih =>
      rw [List.mapM_cons, List.mapM_cons, same first (by simp),
        ih fun member later => same member (by simp [later])]

/-- A step that is taken for the members in another order gives the values in another order. -/
theorem mapM_perm {step : α → Except Fault β} {list other : List α} (same : list.Perm other)
    {values : List β} (passed : list.mapM step = .ok values) :
    ∃ others, other.mapM step = .ok others ∧ values.Perm others := by
  induction same generalizing values with
  | nil => exact ⟨values, passed, .refl values⟩
  | cons first _ ih =>
      obtain ⟨value, rest, made, later, rfl⟩ := mapM_cons_eq_ok passed
      obtain ⟨others, again, perm⟩ := ih later
      exact ⟨value :: others, by rw [List.mapM_cons, made, bind_ok, again]; rfl, perm.cons value⟩
  | swap second first rest =>
      obtain ⟨value, _, made, later, rfl⟩ := mapM_cons_eq_ok passed
      obtain ⟨next, values, madeNext, last, rfl⟩ := mapM_cons_eq_ok later
      refine ⟨next :: value :: values, ?_, .swap next value values⟩
      simp only [List.mapM_cons, made, madeNext, last, bind_ok, pure_eq]
  | trans _ _ ihFirst ihSecond =>
      obtain ⟨between, passedBetween, perm⟩ := ihFirst passed
      obtain ⟨others, again, permBetween⟩ := ihSecond passedBetween
      exact ⟨others, again, perm.trans permBetween⟩

theorem mapM_passes {step : α → Except Fault β} {list : List α}
    (each : ∀ member ∈ list, ∃ value, step member = .ok value) :
    ∃ values, list.mapM step = .ok values := by
  obtain ⟨values, passed, -⟩ : ∃ values, list.mapM step = .ok values ∧ ∀ value ∈ values, True :=
    mapM_ok fun member present => (each member present).imp fun _ passed => ⟨passed, trivial⟩
  exact ⟨values, passed⟩

end Outcome

end ChoiceScript
