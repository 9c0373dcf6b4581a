import ChoiceScript.Text.Delimiter

/-! # Multireplaces

A multireplace `@{test option|option}` is cut into its test and its options. The test is an
expression in parentheses or else the word at the start; the options are what follows, parted by
bars and without the white space around them.
-/

namespace ChoiceScript

/-- A multireplace: test, options, all that stands between the braces, and the offset just past
the closing one. -/
structure Multireplace where
  test : Piece
  options : List Piece
  text : Text
  stop : Nat
  deriving DecidableEq, Repr

/-- Why a multireplace cannot be used. -/
inductive MultireplaceFlaw where
  | noTest
  | noOptions
  | oneOption (option : Piece)
  deriving DecidableEq, Repr

namespace Multireplace

/-- Trim pieces that stand one after another with a bar between neighbours. A piece of nothing but
white space is empty and stays where it starts. -/
def trimPieces (start : Nat) : List Text → List Piece
  | [] => []
  | piece :: pieces =>
    let leading := if Text.blank piece then 0 else (piece.takeWhile Text.isBlank).length
    ⟨Text.trim piece, start + leading⟩ :: trimPieces (start + piece.length + 1) pieces

/-- The options in a text that starts at the given offset. -/
def optionsOf (start : Nat) (body : Text) : List Piece :=
  if Text.blank body then [] else trimPieces start (Text.splitOn '|' body)

/-- The test at the head of what stands between the braces and the length it takes with its
parentheses; none if the parentheses are not closed there. -/
def testOf (contents : Text) (start : Nat) : Option (Piece × Nat) :=
  match contents with
  | '(' :: rest =>
    (Text.spanToClose '(' ')' 0 rest).map fun inner => (⟨inner, start + 1⟩, inner.length + 2)
  | _ =>
    let word := contents.takeWhile Text.isWord
    some (⟨word, start⟩, word.length)

/-- Cut what stands between the braces, which starts at the given offset. -/
def ofContents (contents : Text) (start : Nat) : Multireplace :=
  let stop := start + contents.length + 1
  match testOf contents start with
  | some (test, length) =>
    ⟨test, optionsOf (start + length) (contents.drop length), contents, stop⟩
  | none => ⟨⟨contents.drop 1, start + 1⟩, [], contents, stop⟩

/-- The multireplace whose contents start at an offset, if its brace is closed. -/
def read? (text : Text) (start : Nat) : Option Multireplace :=
  (Text.matchingSpan text '{' '}' start).map (ofContents · start)

def flaw? (multireplace : Multireplace) : Option MultireplaceFlaw :=
  if Text.blank multireplace.test.text then some .noTest
  else match multireplace.options with
  | [] => some .noOptions
  | [option] => if Text.blank option.text then some .noOptions else some (.oneOption option)
  | _ => none

/-- Where reading goes on after the contents that start at an offset: past the brace if the
multireplace can be used, else at its contents. -/
def resume (text : Text) (start : Nat) : Nat :=
  match read? text start with
  | some multireplace => if multireplace.flaw?.isNone then multireplace.stop else start
  | none => start

theorem length_le_of_mem_trimPieces {start : Nat} {pieces : List Text} {bound : Nat}
    (short : ∀ piece ∈ pieces, piece.length ≤ bound) {option : Piece}
    (h : option ∈ trimPieces start pieces) : option.text.length ≤ bound := by
  induction pieces generalizing start with
  | nil => simp [trimPieces] at h
  | cons piece pieces ih =>
    unfold trimPieces at h
    rcases List.mem_cons.1 h with rfl | later
    · exact Nat.le_trans (Text.length_trim_le piece) (short piece (by simp))
    · exact ih (fun piece member => short piece (by simp [member])) later

theorem length_le_of_mem_optionsOf {start : Nat} {body : Text} {option : Piece}
    (h : option ∈ optionsOf start body) : option.text.length ≤ body.length := by
  unfold optionsOf at h
  split at h
  · simp at h
  · exact length_le_of_mem_trimPieces (fun _ member => Text.length_le_of_mem_splitOn member) h

/-- Test and options are no longer than what stands between the braces. -/
theorem length_le_of_ofContents (contents : Text) (start : Nat) :
    (ofContents contents start).test.text.length ≤ contents.length ∧
      ∀ option ∈ (ofContents contents start).options, option.text.length ≤ contents.length := by
  unfold ofContents
  cases found : testOf contents start with
  | none => simp
  | some test =>
    obtain ⟨test, length⟩ := test
    constructor
    · unfold testOf at found
      split at found
      · obtain ⟨inner, span, same⟩ := Option.map_eq_some_iff.1 found
        have := Text.length_lt_of_spanToClose span
        obtain ⟨rfl, rfl⟩ := Prod.mk.inj same
        simp only [List.length_cons]
        omega
      · obtain ⟨rfl, rfl⟩ := Prod.mk.inj (Option.some.inj found)
        exact (List.takeWhile_sublist Text.isWord).length_le
    · intro option member
      have := length_le_of_mem_optionsOf member
      rw [List.length_drop] at this
      omega

/-- Test and options are shorter than the text that holds the multireplace. -/
theorem length_lt_of_read? {text : Text} {start : Nat} {multireplace : Multireplace}
    (h : read? text start = some multireplace) :
    multireplace.test.text.length < text.length ∧
      ∀ option ∈ multireplace.options, option.text.length < text.length := by
  obtain ⟨contents, span, rfl⟩ := Option.map_eq_some_iff.1 h
  have shorter := Text.length_lt_of_matchingSpan span
  obtain ⟨test, options⟩ := length_le_of_ofContents contents start
  exact ⟨by omega, fun option member => by have := options option member; omega⟩

/-- Reading never goes back. -/
theorem le_resume (text : Text) (start : Nat) : start ≤ resume text start := by
  unfold resume
  split
  · rename_i multireplace found
    split
    · obtain ⟨contents, span, rfl⟩ := Option.map_eq_some_iff.1 found
      unfold ofContents
      cases testOf contents start <;> simp only <;> omega
    · exact Nat.le_refl _
  · exact Nat.le_refl _

end Multireplace

end ChoiceScript
