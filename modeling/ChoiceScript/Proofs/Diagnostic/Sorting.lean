import ChoiceScript.Diagnostic.Basic

/-! # Sorting diagnostics

Sorting moves diagnostics about and neither drops nor adds one. No diagnostic then stands before one
that precedes it, and those of which neither precedes the other stand as they stood before. So where
what diagnostics are ordered by tells them apart, the order in which they are found makes no difference.
-/

namespace ChoiceScript

instance : Std.TransOrd Position :=
  inferInstanceAs (Std.TransCmp (compareLex (compareOn Position.line) (compareOn Position.character)))

theorem Position.compare_eq_lt {a b : Position} : compare a b = .lt ↔ a < b := by
  change ((compare a.line b.line).then (compare a.character b.character)) = .lt ↔ _
  simp only [Ordering.then_eq_lt, Nat.compare_eq_lt, Nat.compare_eq_eq, lt_def]

theorem Position.compare_eq_eq {a b : Position} : compare a b = .eq ↔ a = b := by
  change ((compare a.line b.line).then (compare a.character b.character)) = .eq ↔ _
  cases a
  cases b
  simp only [Ordering.then_eq_eq, Nat.compare_eq_eq, mk.injEq]

namespace Diagnostic

/-- A diagnostic starts before another, or ends before it from the same start, or comes first by code,
or else by message. -/
def Precedes (a b : Diagnostic) : Prop :=
  a.range.start < b.range.start ∨ a.range.start = b.range.start ∧
    (a.range.stop < b.range.stop ∨ a.range.stop = b.range.stop ∧
      (a.code < b.code ∨ a.code = b.code ∧ a.message < b.message))

/-- Two diagnostics are the same in all that they are ordered by. -/
def Ties (a b : Diagnostic) : Prop :=
  a.range.start = b.range.start ∧ a.range.stop = b.range.stop ∧ a.code = b.code ∧ a.message = b.message

instance (a b : Diagnostic) : Decidable (Precedes a b) := inferInstanceAs (Decidable (_ ∨ _))

instance (a b : Diagnostic) : Decidable (Ties a b) := inferInstanceAs (Decidable (_ ∧ _))

instance : Std.TransCmp order :=
  inferInstanceAs (Std.TransCmp (compareLex (compareOn fun a => a.range.start)
    (compareLex (compareOn fun a => a.range.stop) (compareLex (compareOn code) (compareOn message)))))

theorem order_eq_lt {a b : Diagnostic} : order a b = .lt ↔ a.Precedes b := by
  have byText : ∀ s t : String, compare s t = .lt ↔ s < t := fun s t => compareOfLessAndEq_eq_lt
  simp only [order, Ordering.then_eq_lt, Position.compare_eq_lt, Position.compare_eq_eq, byText,
    Std.compare_eq_iff_eq, Precedes]

theorem order_eq_eq {a b : Diagnostic} : order a b = .eq ↔ a.Ties b := by
  simp only [order, Ordering.then_eq_eq, Position.compare_eq_eq, Std.compare_eq_iff_eq, Ties]

theorem isLE_order {a b : Diagnostic} : (order a b).isLE = true ↔ ¬ b.Precedes a := by
  have swap : order a b = (order b a).swap := Std.OrientedCmp.eq_swap
  rw [← order_eq_lt, swap]
  cases order b a <;> decide

/-- Two diagnostics of which neither precedes the other are ordered by the same. -/
theorem ties_of_not_precedes {a b : Diagnostic} (ahead : ¬ a.Precedes b) (behind : ¬ b.Precedes a) :
    a.Ties b := by
  have le := isLE_order.2 behind
  rw [← order_eq_lt] at ahead
  rw [← order_eq_eq]
  cases same : order a b with
  | lt => exact absurd same ahead
  | eq => rfl
  | gt => simp [same] at le

theorem Ties.trans {a b c : Diagnostic} (first : a.Ties b) (second : b.Ties c) : a.Ties c :=
  ⟨first.1.trans second.1, first.2.1.trans second.2.1, first.2.2.1.trans second.2.2.1,
    first.2.2.2.trans second.2.2.2⟩

theorem insert_perm (diagnostic : Diagnostic) (sorted : List Diagnostic) :
    (insert diagnostic sorted).Perm (diagnostic :: sorted) := by
  induction sorted with
  | nil => exact .refl _
  | cons first rest ih =>
      unfold insert
      split
      · exact .refl _
      · exact (ih.cons first).trans (.swap diagnostic first rest)

theorem sort_perm (diagnostics : List Diagnostic) : (sort diagnostics).Perm diagnostics := by
  induction diagnostics with
  | nil => exact .refl _
  | cons first rest ih => exact (insert_perm first (sort rest)).trans (ih.cons first)

/-- No diagnostic of a list stands before one that precedes it. -/
def Ordered (diagnostics : List Diagnostic) : Prop :=
  diagnostics.Pairwise fun a b => ¬ b.Precedes a

theorem insert_ordered (diagnostic : Diagnostic) {sorted : List Diagnostic} (ordered : Ordered sorted) :
    Ordered (insert diagnostic sorted) := by
  induction sorted with
  | nil => exact List.pairwise_singleton _ _
  | cons first rest ih =>
      obtain ⟨behind, later⟩ := List.pairwise_cons.1 ordered
      unfold insert
      split
      · rename_i ahead
        refine .cons (fun other member => ?_) ordered
        cases List.mem_cons.1 member with
        | inl same => exact same ▸ isLE_order.1 ahead
        | inr inRest =>
            exact isLE_order.1 (Std.TransCmp.isLE_trans ahead (isLE_order.2 (behind other inRest)))
      · rename_i passed
        refine .cons (fun other member => ?_) (ih later)
        cases List.mem_cons.1 ((insert_perm diagnostic rest).mem_iff.1 member) with
        | inl same =>
            rw [isLE_order, Decidable.not_not, ← order_eq_lt] at passed
            exact same ▸ isLE_order.1 (by rw [passed]; rfl)
        | inr inRest => exact behind other inRest

theorem sort_ordered (diagnostics : List Diagnostic) : Ordered (sort diagnostics) := by
  induction diagnostics with
  | nil => exact .nil
  | cons first rest ih => exact insert_ordered first ih

/-- What ties with a diagnostic is passed by nothing that ties with it too. -/
theorem filter_insert (diagnostic other : Diagnostic) (sorted : List Diagnostic) :
    (insert diagnostic sorted).filter (other.Ties ·) = (diagnostic :: sorted).filter (other.Ties ·) := by
  induction sorted with
  | nil => rfl
  | cons first rest ih =>
      unfold insert
      split
      · rfl
      · rename_i passed
        have apart : ¬ (other.Ties diagnostic ∧ other.Ties first) := by
          rintro ⟨here, there⟩
          have tie : diagnostic.Ties first :=
            Ties.trans ⟨here.1.symm, here.2.1.symm, here.2.2.1.symm, here.2.2.2.symm⟩ there
          exact passed (by rw [order_eq_eq.2 tie]; rfl)
        rw [List.filter_cons, ih, List.filter_cons, List.filter_cons, List.filter_cons]
        by_cases here : other.Ties diagnostic
        · have there : ¬ other.Ties first := fun tie => apart ⟨here, tie⟩
          simp [here, there]
        · simp [here]

/-- Sorting is stable. -/
theorem filter_sort (other : Diagnostic) (diagnostics : List Diagnostic) :
    (sort diagnostics).filter (other.Ties ·) = diagnostics.filter (other.Ties ·) := by
  induction diagnostics with
  | nil => rfl
  | cons first rest ih =>
      change (insert first (sort rest)).filter _ = _
      rw [filter_insert, List.filter_cons, List.filter_cons, ih]

/-- Where no two members tie, there is but one order to put a list in. -/
theorem sort_eq_of_perm {diagnostics others : List Diagnostic} (same : diagnostics.Perm others)
    (told : ∀ a ∈ diagnostics, ∀ b ∈ diagnostics, a.Ties b → a = b) : sort diagnostics = sort others := by
  have perm : (sort diagnostics).Perm (sort others) :=
    (sort_perm diagnostics).trans (same.trans (sort_perm others).symm)
  refine List.Perm.eq_of_pairwise ?_ (sort_ordered diagnostics) (sort_ordered others) perm
  intro a b here there behind ahead
  have inFirst := (sort_perm diagnostics).mem_iff.1 here
  have inSecond := same.mem_iff.2 ((sort_perm others).mem_iff.1 there)
  exact told a inFirst b inSecond (ties_of_not_precedes ahead behind)

end Diagnostic

end ChoiceScript
