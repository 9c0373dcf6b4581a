/-! # Text

Source text is the list of its code points, so that a length, a column and an offset all count the
same thing. Names, addresses and messages stay strings.
-/

namespace ChoiceScript

/-- A piece of source text as the list of its code points. -/
abbrev Text := List Char

/-- A piece of a text and the offset where it starts. -/
structure Piece where
  text : Text
  start : Nat
  deriving DecidableEq, Repr

def Piece.stop (piece : Piece) : Nat := piece.start + piece.text.length

namespace Text

/-- Cut a text at every separator. There is one piece more than there are separators. -/
def splitOn (separator : Char) : Text → List Text
  | [] => [[]]
  | c :: rest =>
    if c = separator then [] :: splitOn separator rest
    else match splitOn separator rest with
      | [] => [[c]]
      | piece :: pieces => (c :: piece) :: pieces

def joinWith (separator : Char) : List Text → Text
  | [] => []
  | [piece] => piece
  | piece :: pieces => piece ++ separator :: joinWith separator pieces

/-- Is a number in one of the runs, given by first and last member? -/
def inRanges (ranges : List (Nat × Nat)) (n : Nat) : Bool :=
  ranges.any fun (first, last) => first ≤ n && n ≤ last

theorem splitOn_ne_nil (separator : Char) (text : Text) : splitOn separator text ≠ [] := by
  cases text with
  | nil => simp [splitOn]
  | cons c rest =>
    unfold splitOn
    split
    · simp
    · split <;> simp

/-- Putting the pieces together again gives the text. -/
theorem joinWith_splitOn (separator : Char) (text : Text) :
    joinWith separator (splitOn separator text) = text := by
  induction text with
  | nil => rfl
  | cons c rest ih =>
    unfold splitOn
    cases pieces : splitOn separator rest with
    | nil => exact absurd pieces (splitOn_ne_nil separator rest)
    | cons piece others =>
      rw [pieces] at ih
      split
      · rename_i same
        simp [joinWith, ih, same]
      · cases others <;> simp_all [joinWith]

theorem length_le_of_mem_splitOn {separator : Char} {text p : Text}
    (h : p ∈ splitOn separator text) : p.length ≤ text.length := by
  induction text generalizing p with
  | nil => simp_all [splitOn]
  | cons c rest ih =>
    unfold splitOn at h
    split at h
    · rcases List.mem_cons.1 h with rfl | later
      · simp
      · have := ih later
        simp only [List.length_cons]
        omega
    · split at h
      · simp_all
      · rename_i first others pieces
        rcases List.mem_cons.1 h with rfl | later
        · have := ih (p := first) (by simp [pieces])
          simp only [List.length_cons]
          omega
        · have := ih (p := p) (by simp [pieces, later])
          simp only [List.length_cons]
          omega

/-- No piece holds the separator, or anything that the text does not hold. -/
theorem of_mem_splitOn {separator c : Char} {text piece : Text} (member : piece ∈ splitOn separator text)
    (inside : c ∈ piece) : c ≠ separator ∧ c ∈ text := by
  induction text generalizing piece with
  | nil =>
      rw [splitOn, List.mem_singleton] at member
      subst member
      cases inside
  | cons first rest ih =>
      unfold splitOn at member
      split at member
      · rcases List.mem_cons.1 member with rfl | later
        · cases inside
        · have held := ih later inside
          exact ⟨held.1, List.mem_cons_of_mem _ held.2⟩
      · rename_i apart
        split at member
        · rename_i none
          exact absurd none (splitOn_ne_nil separator rest)
        · rename_i head others pieces
          rcases List.mem_cons.1 member with rfl | later
          · rcases List.mem_cons.1 inside with rfl | further
            · exact ⟨apart, List.mem_cons_self⟩
            · have held := ih (by rw [pieces]; exact List.mem_cons_self) further
              exact ⟨held.1, List.mem_cons_of_mem _ held.2⟩
          · have held := ih (by rw [pieces]; exact List.mem_cons_of_mem _ later) inside
            exact ⟨held.1, List.mem_cons_of_mem _ held.2⟩

/-- What follows the longest prefix that satisfies a test does not satisfy it. -/
theorem not_of_getElem?_takeWhile {α : Type} {test : α → Bool} {list : List α} {next : α}
    (found : list[(list.takeWhile test).length]? = some next) : test next = false := by
  induction list with
  | nil => simp at found
  | cons first rest ih =>
      cases holds : test first with
      | false =>
          simp only [List.takeWhile_cons, holds, Bool.false_eq_true, if_false, List.length_nil,
            List.getElem?_cons_zero, Option.some.injEq] at found
          exact found ▸ holds
      | true =>
          simp only [List.takeWhile_cons, holds, if_true, List.length_cons,
            List.getElem?_cons_succ] at found
          exact ih found

/-- The longest prefix that satisfies a test ends where the first character fails it. -/
theorem takeWhile_exact {test : Char → Bool} {before rest : Text}
    (all : ∀ c ∈ before, test c = true) (stops : ∀ c ∈ rest.head?, test c = false) :
    (before ++ rest).takeWhile test = before := by
  rw [List.takeWhile_append_of_pos all]
  cases rest with
  | nil => simp
  | cons c others => simp [stops c rfl]

theorem dropWhile_exact {test : Char → Bool} {before rest : Text}
    (all : ∀ c ∈ before, test c = true) (stops : ∀ c ∈ rest.head?, test c = false) :
    (before ++ rest).dropWhile test = rest := by
  rw [List.dropWhile_append_of_pos all]
  cases rest with
  | nil => rfl
  | cons c others => simp [stops c rfl]

/-- What holds of the first characters by their codes holds of each of them. -/
theorem of_code (holds : Char → Prop) (codes : ∀ code < 128, holds (Char.ofNat code)) {c : Char}
    (ascii : c.toNat < 128) : holds c := by
  have held := codes c.toNat ascii
  rwa [Char.ofNat_toNat] at held

end Text

end ChoiceScript
