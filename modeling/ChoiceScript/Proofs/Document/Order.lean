import ChoiceScript.Document.Basic

/-! # Lists in the order of their places

In a list whose members stand one after another in a document, the first member with a property is
the one that stands before all others with it.
-/

namespace ChoiceScript

/-- Of two members of a list that stand in a relation one way or the other, or are the same. -/
theorem eq_of_pairwise {α : Type} {related : α → α → Prop} {list : List α} {first second : α}
    (pairwise : list.Pairwise related) (member : first ∈ list) (among : second ∈ list)
    (before : ¬ related first second) (after : ¬ related second first) : first = second := by
  obtain ⟨i, inside, rfl⟩ := List.mem_iff_getElem.1 member
  obtain ⟨j, within, rfl⟩ := List.mem_iff_getElem.1 among
  rcases Nat.lt_trichotomy i j with less | rfl | more
  · exact absurd (List.pairwise_iff_getElem.1 pairwise i j inside within less) before
  · rfl
  · exact absurd (List.pairwise_iff_getElem.1 pairwise j i within inside more) after

section Rising

variable {α : Type} (place : α → Position) {list : List α}

theorem find?_eq_some_iff_first (rising : list.Pairwise fun a b => place a < place b)
    {holds : α → Bool} {found : α} : list.find? holds = some found ↔
      (found ∈ list ∧ holds found = true) ∧
        ∀ other ∈ list, holds other = true → place found ≤ place other := by
  induction list with
  | nil => simp
  | cons first rest ih =>
      obtain ⟨before, later⟩ := List.pairwise_cons.1 rising
      by_cases held : holds first = true
      · rw [List.find?_cons_of_pos held, Option.some.injEq]
        constructor
        · rintro rfl
          refine ⟨⟨List.mem_cons_self, held⟩, fun other member _ => ?_⟩
          rcases List.mem_cons.1 member with rfl | behind
          · exact Position.le_refl _
          · exact Position.le_of_lt (before other behind)
        · rintro ⟨⟨member, -⟩, least⟩
          rcases List.mem_cons.1 member with same | behind
          · exact same.symm
          · exact absurd (least first List.mem_cons_self held) (Position.not_le.2 (before found behind))
      · rw [List.find?_cons_of_neg held, ih later]
        constructor
        · rintro ⟨⟨member, heldToo⟩, least⟩
          refine ⟨⟨List.mem_cons_of_mem _ member, heldToo⟩, fun other among holdsOther => ?_⟩
          rcases List.mem_cons.1 among with rfl | behind
          · exact absurd holdsOther held
          · exact least other behind holdsOther
        · rintro ⟨⟨member, heldToo⟩, least⟩
          refine ⟨⟨?_, heldToo⟩, fun other behind => least other (List.mem_cons_of_mem _ behind)⟩
          rcases List.mem_cons.1 member with rfl | behind
          · exact absurd heldToo held
          · exact behind

/-- The entry of a name that is looked up is the one that stands first. -/
theorem lookup_eq_some_iff_first {list : List (String × α)}
    (rising : list.Pairwise fun a b => place a.2 < place b.2) {name : String} {found : α} :
    list.lookup name = some found ↔
      (name, found) ∈ list ∧ ∀ other, (name, other) ∈ list → place found ≤ place other := by
  have looks : list.lookup name = some found ↔
      list.find? (fun entry => name == entry.1) = some (name, found) := by
    rw [List.lookup_eq_some_iff, List.find?_eq_some_iff_append]
    simp [bne]
  have order : list.find? (fun entry => name == entry.1) = some (name, found) ↔ _ :=
    find?_eq_some_iff_first (fun entry => place entry.2) rising
  rw [looks, order]
  simp only [beq_self_eq_true, and_true, beq_iff_eq, Prod.forall]
  constructor
  · exact fun ⟨member, least⟩ => ⟨member, fun other among => least name other among rfl⟩
  · exact fun ⟨member, least⟩ => ⟨member, fun same other among is => least other (is ▸ among)⟩

end Rising

end ChoiceScript
