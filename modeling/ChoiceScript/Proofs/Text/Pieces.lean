import ChoiceScript.CommandLine
import ChoiceScript.SceneList
import ChoiceScript.StatChart

/-! # Pieces of a text

Words, values, targets and lines are cut out of a text, and each is the head of what the text has
from its offset on.
-/

namespace ChoiceScript

/-- A piece stands in a text that starts at an offset. -/
structure Piece.StandsIn (piece : Piece) (text : Text) (offset : Nat) : Prop where
  after : offset ≤ piece.start
  part : piece.text <+: text.drop (piece.start - offset)
  stop : piece.stop ≤ offset + text.length

namespace Piece.StandsIn

/-- What stands in a piece stands in the text around it. -/
theorem within {piece : Piece} {inner outer : Text} {offset place : Nat}
    (stands : piece.StandsIn inner place) (skipped : Nat) (part : inner <+: outer.drop skipped)
    (fits : skipped ≤ outer.length) (same : place = offset + skipped) :
    piece.StandsIn outer offset := by
  have after := stands.after
  have stop := stands.stop
  refine ⟨by omega, ?_, ?_⟩
  · obtain ⟨rest, whole⟩ := part
    have split : outer.drop (piece.start - offset) = (inner ++ rest).drop (piece.start - place) := by
      rw [whole, List.drop_drop]
      congr 1
      omega
    have start : piece.start - place ≤ inner.length := by
      simp only [Piece.stop] at stop
      omega
    rw [split, List.drop_append_of_le_length start]
    exact stands.part.trans (List.prefix_append _ _)
  · have := part.length_le
    rw [List.length_drop] at this
    omega

end Piece.StandsIn

namespace Text

theorem matchingSpan_prefix {text contents : Text} {opening closing : Char} {start : Nat}
    (span : matchingSpan text opening closing start = some contents) :
    contents <+: text.drop start := by
  obtain ⟨tail, whole⟩ := eq_append_of_spanToClose span
  exact ⟨closing :: tail, whole.symm⟩

theorem standsIn_of_mem_wordsFrom {offset : Nat} {text : Text} {word : Piece}
    (member : word ∈ wordsFrom offset text) : word.StandsIn text offset := by
  fun_induction wordsFrom offset text with
  | case1 => simp at member
  | case2 offset c rest isWord first ih =>
      have whole : c :: rest = first ++ rest.dropWhile Text.isWord := by
        simp only [first, List.cons_append, List.takeWhile_append_dropWhile]
      rcases List.mem_cons.1 member with rfl | later
      · refine ⟨Nat.le_refl _, ?_, ?_⟩
        · rw [Nat.sub_self, List.drop_zero, whole]
          exact List.prefix_append _ _
        · rw [whole]
          simp [Piece.stop]
      · refine (ih later).within first.length ?_ ?_ rfl
        · have left : (c :: rest).drop first.length = rest.dropWhile Text.isWord := by
            rw [whole, List.drop_left]
          exact left ▸ List.prefix_refl _
        · rw [whole]
          simp
  | case3 offset c rest other ih =>
      exact (ih member).within 1 (List.prefix_refl _) (by simp) rfl

theorem valueAfter?_prefix {text value : Text} {spacing : Nat}
    (found : valueAfter? text = some (spacing, value)) : value <+: text.drop spacing := by
  induction text generalizing spacing value with
  | nil => simp [valueAfter?] at found
  | cons c text ih =>
      cases text with
      | nil => simp [valueAfter?] at found
      | cons d rest =>
          rw [valueAfter?] at found
          split at found
          · simp at found
          · split at found
            · obtain ⟨⟨further, later⟩, inside, same⟩ := Option.map_eq_some_iff.1 found
              obtain ⟨rfl, rfl⟩ := Prod.mk.inj same
              exact ih inside
            · obtain ⟨rfl, rfl⟩ := Prod.mk.inj (Option.some.inj found)
              exact List.takeWhile_prefix _

section Token

variable {delimiters : List (Char × Char)} {allowed : Char → Bool} {text token : Text} {index : Nat}

theorem tokenAt_prefix (found : tokenAt delimiters allowed text index = some token) :
    token <+: text.drop index := by
  unfold tokenAt at found
  split at found
  · simp at found
  · rename_i c rest head
    rw [head]
    split at found
    · obtain ⟨span, closed, rfl⟩ := Option.map_eq_some_iff.1 found
      obtain ⟨tail, rfl⟩ := eq_append_of_spanToClose closed
      exact ⟨tail, by simp⟩
    · split at found
      · simp at found
      · obtain rfl := Option.some.inj found
        exact List.takeWhile_prefix _

/-- A token is a group or made of allowed characters. -/
theorem tokenAt_head (found : tokenAt delimiters allowed text index = some token) :
    (∃ pair ∈ delimiters, token.head? = some pair.1) ∨ ∀ c ∈ token, allowed c = true := by
  unfold tokenAt at found
  split at found
  · simp at found
  · split at found
    · rename_i c rest _ opening closing pair
      obtain ⟨span, -, rfl⟩ := Option.map_eq_some_iff.1 found
      have opens := List.find?_some pair
      simp only [decide_eq_true_eq] at opens
      exact .inl ⟨_, List.mem_of_find?_eq_some pair, by simp [opens]⟩
    · split at found
      · simp at found
      · obtain rfl := Option.some.inj found
        exact .inr fun c member => List.all_eq_true.1 List.all_takeWhile c member

/-- What starts with an opening character is a token where a closing one matches it. -/
theorem tokenAt_of_opening {opening closing : Char} (here : text[index]? = some opening)
    (pair : delimiters.find? (·.1 = opening) = some (opening, closing)) :
    tokenAt delimiters allowed text index =
      (matchingSpan text opening closing (index + 1)).map fun span => opening :: span ++ [closing] := by
  obtain ⟨inside, first⟩ := List.getElem?_eq_some_iff.1 here
  rw [tokenAt, List.drop_eq_getElem_cons inside, first]
  simp only [pair]
  rfl

/-- Behind no opening character a token goes as far as the allowed characters. -/
theorem tokenAt_of_run (noOpening : ∀ c ∈ text[index]?, delimiters.find? (·.1 = c) = none) :
    tokenAt delimiters allowed text index =
      if (text.drop index).takeWhile allowed = [] then none
      else some ((text.drop index).takeWhile allowed) := by
  rw [← List.head?_drop] at noOpening
  unfold tokenAt
  generalize text.drop index = behind at noOpening ⊢
  cases behind with
  | nil => rfl
  | cons c rest =>
      simp only [noOpening c rfl]
      cases (c :: rest).takeWhile allowed <;> rfl

end Token

theorem jumpTarget_prefix (line : Text) (start : Nat) : jumpTarget line start <+: line.drop start := by
  unfold jumpTarget
  cases found : tokenAt [('{', '}')] isLabel line start with
  | none => exact List.nil_prefix
  | some target => exact tokenAt_prefix found

/-- The target of a jump is in braces or a name. -/
def IsTarget (target : Text) : Prop :=
  target.head? = some '{' ∨ ∀ c ∈ target, isLabel c = true

theorem isTarget_nil : IsTarget [] := .inr (by simp)

theorem isTarget_jumpTarget (line : Text) (start : Nat) : IsTarget (jumpTarget line start) := by
  unfold jumpTarget
  cases found : tokenAt [('{', '}')] isLabel line start with
  | none => exact isTarget_nil
  | some target => simpa [IsTarget] using tokenAt_head found

/-- Both targets of a jump stand on its line. -/
theorem jumpTargets_place (line : Text) :
    (jumpTargets line).1.text <+: line ∧
      (jumpTargets line).2.text <+: line.drop (jumpTargets line).2.start := by
  constructor
  · exact jumpTarget_prefix line 0
  · unfold jumpTargets
    dsimp only
    generalize (if jumpTarget line 0 = [] then [] else _) = spacing
    split
    · exact List.nil_prefix
    · rw [← List.drop_drop]
      exact jumpTarget_prefix _ _

theorem isTarget_jumpTargets (line : Text) :
    IsTarget (jumpTargets line).1.text ∧ IsTarget (jumpTargets line).2.text := by
  refine ⟨isTarget_jumpTarget line 0, ?_⟩
  unfold jumpTargets
  dsimp only
  generalize (if jumpTarget line 0 = [] then [] else _) = spacing
  split
  · exact isTarget_nil
  · exact isTarget_jumpTarget _ _

theorem inside_prefix (text : Text) : text.inside <+: text.drop 1 := by
  rw [inside, List.drop_one]
  exact List.dropLast_prefix _

theorem start_le_of_mem_linesFrom {text : Text} {start : Nat} {line : Piece}
    (member : line ∈ linesFrom text start) : start ≤ line.start := by
  unfold linesFrom at member
  generalize cutLines (text.drop start) = lines at member
  induction lines generalizing start with
  | nil => simp [placeLines] at member
  | cons first lines ih =>
      rcases List.mem_cons.1 member with rfl | later
      · exact Nat.le_refl _
      · exact Nat.le_trans (Nat.le_add_right _ _) (ih later)

theorem le_of_mem_accept {padding : Option Text} {lines : List Piece} {start : Nat}
    {entry : Text × Nat} (after : ∀ line ∈ lines, start ≤ line.start)
    (member : entry ∈ SceneEntry.accept padding lines) : start ≤ entry.2 := by
  fun_induction SceneEntry.accept padding lines with
  | case1 => simp at member
  | case2 => simp at member
  | case3 padding line lines read found same ih =>
      rcases List.mem_cons.1 member with rfl | later
      · exact Nat.le_trans (after line (by simp)) (Nat.le_add_right _ _)
      · exact ih (fun line member => after line (by simp [member])) later
  | case4 => simp at member

/-- No line of a list of scenes stops before the list starts. -/
theorem le_of_mem_sceneNames {text : Text} {start : Nat} {entry : Text × Nat}
    (member : entry ∈ sceneNames text start) : start ≤ entry.2 := by
  refine le_of_mem_accept (fun line present => ?_) member
  exact start_le_of_mem_linesFrom (List.mem_filter.1 present).1

end Text

theorem StatChart.misindented_le {text : Text} {padding : Option Text} {start : Nat}
    {stretch : Nat × Nat} (found : (readFrom text padding start).misindented = some stretch) :
    stretch.1 ≤ stretch.2 := by
  fun_induction readFrom text padding start with
  | case1 => simp at found
  | case2 => simp at found
  | case3 =>
      obtain rfl := Option.some.inj found
      exact Nat.le_add_right _ _
  | case4 padding start line read padding' enough same next block chart ih => exact ih found

end ChoiceScript
