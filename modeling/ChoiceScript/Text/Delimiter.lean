import ChoiceScript.Text.Character

/-! # Matching delimiters

A span runs up to the close delimiter that matches an open one already read. Nested pairs are
counted; where both delimiters are one character, as quotes are, the first one closes.
-/

namespace ChoiceScript.Text

/-- What stands before the close delimiter that ends `depth + 1` open pairs. -/
def spanToClose (opening closing : Char) : Nat → Text → Option Text
  | _, [] => none
  | depth, c :: rest =>
    if c = closing then
      match depth with
      | 0 => some []
      | outer + 1 => (spanToClose opening closing outer rest).map (c :: ·)
    else if c = opening then (spanToClose opening closing (depth + 1) rest).map (c :: ·)
    else (spanToClose opening closing depth rest).map (c :: ·)

/-- What stands in a text from an offset up to the matching close delimiter. -/
def matchingSpan (text : Text) (opening closing : Char) (start : Nat) : Option Text :=
  spanToClose opening closing 0 (text.drop start)

/-- A span and its close delimiter are the head of the text. -/
theorem eq_append_of_spanToClose {opening closing : Char} {depth : Nat} {text span : Text}
    (h : spanToClose opening closing depth text = some span) :
    ∃ tail, text = span ++ closing :: tail := by
  fun_induction spanToClose opening closing depth text generalizing span <;> simp_all
  all_goals
    rename_i ih
    obtain ⟨inner, found, rfl⟩ := h
    obtain ⟨tail, rfl⟩ := ih found
    exact ⟨tail, rfl⟩

/-- A span is shorter than the text it is read from, for its close delimiter follows it. -/
theorem length_lt_of_spanToClose {opening closing : Char} {depth : Nat} {text span : Text}
    (h : spanToClose opening closing depth text = some span) : span.length < text.length := by
  obtain ⟨tail, rfl⟩ := eq_append_of_spanToClose h
  simp

theorem length_lt_of_matchingSpan {text span : Text} {opening closing : Char} {start : Nat}
    (h : matchingSpan text opening closing start = some span) :
    start + span.length < text.length := by
  have := length_lt_of_spanToClose h
  rw [List.length_drop] at this
  omega

/-- Read open and close delimiters off a text that writes them side by side. -/
def delimiterPairs : Text → List (Char × Char)
  | opening :: closing :: rest => (opening, closing) :: delimiterPairs rest
  | _ => []

/-- The token that starts at an offset: a group with its delimiters, or else a run of allowed
characters. An open delimiter without its close one starts no token. -/
def tokenAt (delimiters : List (Char × Char)) (allowed : Char → Bool) (text : Text)
    (index : Nat) : Option Text :=
  match text.drop index with
  | [] => none
  | c :: rest =>
    match delimiters.find? (·.1 = c) with
    | some (_, closing) => (spanToClose c closing 0 rest).map fun span => c :: span ++ [closing]
    | none =>
      match (c :: rest).takeWhile allowed with
      | [] => none
      | run => some run

end ChoiceScript.Text
