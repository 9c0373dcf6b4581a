import Mathlib.Data.List.TakeWhile
import ChoiceScript.Multireplace
import ChoiceScript.Proofs.Text.Pieces

/-! # Where the pieces of a multireplace stand

Test and options are cut out of what stands between the braces, at the offsets they carry. White
space around an option is dropped on both sides, so an option is still the head of what the text has
from its offset on.
-/

namespace ChoiceScript

namespace Text

theorem trim_prefix (text : Text) :
    trim text <+: text.drop (text.takeWhile isBlank).length := by
  have dropped : text.drop (text.takeWhile isBlank).length = text.dropWhile isBlank := by
    conv => lhs; arg 2; rw [← List.takeWhile_append_dropWhile (p := isBlank) (l := text)]
    exact List.drop_left
  rw [dropped, trim, trimStart, trimStart]
  have := List.reverse_prefix.2 (List.dropWhile_suffix isBlank (l := (text.dropWhile isBlank).reverse))
  rwa [List.reverse_reverse] at this

theorem trim_eq_nil {text : Text} (empty : blank text = true) : trim text = [] := by
  have all : ∀ c ∈ text, isBlank c = true := List.all_eq_true.1 empty
  have none : trimStart text = [] := List.dropWhile_eq_nil_iff.2 all
  rw [trim, none]
  rfl

theorem prefix_joinWith (separator : Char) (piece : Text) (pieces : List Text) :
    piece <+: joinWith separator (piece :: pieces) := by
  cases pieces with
  | nil => exact List.prefix_refl _
  | cons next others => exact List.prefix_append _ _

theorem joinWith_cons_cons (separator : Char) (piece next : Text) (pieces : List Text) :
    joinWith separator (piece :: next :: pieces) =
      piece ++ separator :: joinWith separator (next :: pieces) := rfl

theorem joinWith_prefix_drop (separator : Char) (piece next : Text) (pieces : List Text) :
    joinWith separator (next :: pieces) <+:
      (joinWith separator (piece :: next :: pieces)).drop (piece.length + 1) := by
  rw [joinWith_cons_cons separator piece, ← List.drop_drop, List.drop_left]
  exact List.prefix_refl _

end Text

namespace Multireplace

theorem standsIn_trimmed (piece : Text) (start : Nat) :
    Piece.StandsIn ⟨Text.trim piece,
      start + if Text.blank piece then 0 else (piece.takeWhile Text.isBlank).length⟩ piece start := by
  cases empty : Text.blank piece with
  | true =>
      simp only [if_true, Text.trim_eq_nil empty]
      exact ⟨Nat.le_refl _, List.nil_prefix, by simp [Piece.stop]⟩
  | false =>
      have head := Text.trim_prefix piece
      refine ⟨by simp, by simpa using head, ?_⟩
      have short := head.length_le
      have lead := (List.takeWhile_sublist Text.isBlank (l := piece)).length_le
      simp only [List.length_drop] at short
      simp only [Piece.stop, Bool.false_eq_true, if_false]
      omega

theorem standsIn_of_mem_trimPieces {start : Nat} {pieces : List Text} {option : Piece}
    (member : option ∈ trimPieces start pieces) :
    option.StandsIn (Text.joinWith '|' pieces) start := by
  induction pieces generalizing start with
  | nil => simp [trimPieces] at member
  | cons piece pieces ih =>
      rcases List.mem_cons.1 member with rfl | later
      · exact (standsIn_trimmed piece start).within 0 (Text.prefix_joinWith '|' piece pieces)
          (Nat.zero_le _) rfl
      · cases pieces with
        | nil => simp [trimPieces] at later
        | cons next others =>
            refine (ih later).within (piece.length + 1)
              (Text.joinWith_prefix_drop '|' piece next others) ?_ (by omega)
            simp [Text.joinWith_cons_cons]

theorem standsIn_of_mem_optionsOf {start : Nat} {body : Text} {option : Piece}
    (member : option ∈ optionsOf start body) : option.StandsIn body start := by
  unfold optionsOf at member
  split at member
  · simp at member
  · have stands := standsIn_of_mem_trimPieces member
    rwa [Text.joinWith_splitOn] at stands

theorem standsIn_of_testOf {contents : Text} {start length : Nat} {test : Piece}
    (found : testOf contents start = some (test, length)) :
    test.StandsIn contents start ∧ test.stop ≤ start + length ∧ length ≤ contents.length := by
  unfold testOf at found
  split at found
  · rename_i rest
    obtain ⟨inner, span, same⟩ := Option.map_eq_some_iff.1 found
    obtain ⟨rfl, rfl⟩ := Prod.mk.inj same
    obtain ⟨tail, rfl⟩ := Text.eq_append_of_spanToClose span
    refine ⟨⟨by simp, by simp, ?_⟩, ?_, ?_⟩ <;> simp only [Piece.stop, List.length_cons,
      List.length_append] <;> omega
  · obtain ⟨rfl, rfl⟩ := Prod.mk.inj (Option.some.inj found)
    have short := (List.takeWhile_sublist Text.isWord (l := contents)).length_le
    exact ⟨⟨Nat.le_refl _, by simpa using List.takeWhile_prefix Text.isWord,
      Nat.add_le_add_left short _⟩, Nat.le_refl _, short⟩

/-- Where the pieces of a multireplace stand whose contents start at an offset. -/
structure Placed (multireplace : Multireplace) (text : Text) (start : Nat) : Prop where
  stop : start < multireplace.stop
  stop_le : multireplace.stop ≤ text.length
  test : multireplace.test.StandsIn text 0
  test_stop : multireplace.test.stop < multireplace.stop
  options : ∀ option ∈ multireplace.options,
    option.StandsIn text 0 ∧ option.stop < multireplace.stop

theorem placed_of_contents {text contents : Text} {start : Nat} (part : contents <+: text.drop start)
    (fits : start + contents.length < text.length) :
    (ofContents contents start).Placed text start := by
  have inText : ∀ {piece : Piece}, piece.StandsIn contents start →
      piece.StandsIn text 0 ∧ piece.stop < start + contents.length + 1 := fun {piece} stands =>
    ⟨stands.within start part (by omega) (by omega), Nat.lt_succ_of_le stands.stop⟩
  unfold ofContents
  cases found : testOf contents start with
  | some test =>
      obtain ⟨test, length⟩ := test
      obtain ⟨stands, -, short⟩ := standsIn_of_testOf found
      refine ⟨by simp only; omega, by simp only; omega, (inText stands).1, (inText stands).2, ?_⟩
      intro option member
      refine inText ((standsIn_of_mem_optionsOf member).within length (List.prefix_refl _) short rfl)
  | none =>
      -- only contents that start with a parenthesis can lack a test
      have nonempty : 0 < contents.length := by
        cases contents with
        | nil => simp [testOf] at found
        | cons => simp
      have stands : Piece.StandsIn ⟨contents.drop 1, start + 1⟩ contents start := by
        refine ⟨by simp, by simp, ?_⟩
        simp only [Piece.stop, List.length_drop]
        omega
      exact ⟨by simp only; omega, by simp only; omega, (inText stands).1, (inText stands).2,
        by simp⟩

theorem placed_of_read? {text : Text} {start : Nat} {multireplace : Multireplace}
    (found : read? text start = some multireplace) : multireplace.Placed text start := by
  obtain ⟨contents, span, rfl⟩ := Option.map_eq_some_iff.1 found
  exact placed_of_contents (Text.matchingSpan_prefix span) (Text.length_lt_of_matchingSpan span)

theorem mem_of_flaw? {multireplace : Multireplace} {option : Piece}
    (flaw : multireplace.flaw? = some (.oneOption option)) : option ∈ multireplace.options := by
  unfold flaw? at flaw
  split at flaw
  · simp at flaw
  · split at flaw <;> try split at flaw
    all_goals simp_all

/-- The pieces of a multireplace stand one after another, from an offset on. -/
structure InOrder (multireplace : Multireplace) (start : Nat) : Prop where
  start_le : start ≤ multireplace.test.start
  test_stop : ∀ option ∈ multireplace.options, multireplace.test.stop ≤ option.start
  apart : multireplace.options.Pairwise fun a b => a.stop ≤ b.start

theorem le_of_mem_trimPieces {start : Nat} {pieces : List Text} {option : Piece}
    (member : option ∈ trimPieces start pieces) : start ≤ option.start :=
  (standsIn_of_mem_trimPieces member).after

theorem trimPieces_apart (start : Nat) (pieces : List Text) :
    (trimPieces start pieces).Pairwise fun a b => a.stop ≤ b.start := by
  induction pieces generalizing start with
  | nil => exact .nil
  | cons piece pieces ih =>
      refine .cons (fun later member => ?_) (ih _)
      have := (standsIn_trimmed piece start).stop
      have := le_of_mem_trimPieces member
      omega

theorem optionsOf_apart (start : Nat) (body : Text) :
    (optionsOf start body).Pairwise fun a b => a.stop ≤ b.start := by
  unfold optionsOf
  split
  · exact .nil
  · exact trimPieces_apart start _

theorem inOrder_of_read? {text : Text} {start : Nat} {multireplace : Multireplace}
    (found : read? text start = some multireplace) : multireplace.InOrder start := by
  obtain ⟨contents, span, rfl⟩ := Option.map_eq_some_iff.1 found
  unfold ofContents
  cases parted : testOf contents start with
  | none => exact ⟨Nat.le_succ _, by simp, .nil⟩
  | some test =>
      obtain ⟨test, length⟩ := test
      obtain ⟨stands, stop, -⟩ := standsIn_of_testOf parted
      refine ⟨stands.after, fun option member => ?_, optionsOf_apart _ _⟩
      exact Nat.le_trans stop (standsIn_of_mem_optionsOf member).after

end Multireplace

end ChoiceScript
