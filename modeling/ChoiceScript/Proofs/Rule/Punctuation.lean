import ChoiceScript.Proofs.Document.LineTable
import ChoiceScript.Proofs.Outcome
import ChoiceScript.Proofs.Rule.LineCommand
import ChoiceScript.Rule.Style

/-! # The runs that the rule on punctuation finds

A run of dots or dashes counts as a whole: with one character more on either side it is another run, and
no part of that one is found. A search that goes on behind each run misses none, because the character
behind a run is not the character of the run.
-/

namespace ChoiceScript

namespace Punctuation

/-- The character that the punctuation is made of. -/
def char : Punctuation → Char
  | ellipsis => '.'
  | dash => '-'

variable {mark : Punctuation} {previous : Option Char} {offset start : Nat} {c : Char} {text rest : Text}

/-- A text starts with as many of the character as make up the punctuation, and with no more, and it
stands behind another character or behind none. -/
structure Heads (mark : Punctuation) (previous : Option Char) (text : Text) : Prop where
  fresh : previous ≠ some mark.char
  whole : ∃ after, text = List.replicate mark.length mark.char ++ after ∧ after.head? ≠ some mark.char

/-- In a text that starts at an offset, behind a character or behind none, a run starts at `start`. -/
def RunsAt (mark : Punctuation) (previous : Option Char) (offset : Nat) (text : Text) (start : Nat) :
    Prop :=
  ∃ before after, text = before ++ after ∧ start = offset + before.length ∧
    mark.Heads (before.getLast?.or previous) after

theorem Heads.head?_eq (heads : mark.Heads previous text) : text.head? = some mark.char := by
  obtain ⟨after, rfl, -⟩ := heads.whole
  cases mark <;> rfl

theorem heads_run (run : Punctuation) :
    mark.Heads previous (List.replicate run.length run.char ++ rest) ↔
      mark = run ∧ previous ≠ some run.char ∧ rest.head? ≠ some run.char := by
  constructor
  · intro heads
    have head := heads.head?_eq
    obtain ⟨fresh, after, whole, stops⟩ := heads
    obtain rfl : mark = run := by
      cases mark <;> cases run <;> first | rfl | simp [length, char, List.replicate] at head
    exact ⟨rfl, fresh, List.append_cancel_left whole ▸ stops⟩
  · rintro ⟨rfl, fresh, stops⟩
    exact ⟨fresh, rest, rfl, stops⟩

theorem heads_dots : mark.Heads previous ('.' :: '.' :: '.' :: rest) ↔
    mark = ellipsis ∧ previous ≠ some '.' ∧ rest.head? ≠ some '.' := heads_run ellipsis

theorem heads_dashes : mark.Heads previous ('-' :: '-' :: rest) ↔
    mark = dash ∧ previous ≠ some '-' ∧ rest.head? ≠ some '-' := heads_run dash

theorem getLast?_cons_or (before : Text) (c : Char) (previous : Option Char) :
    (c :: before).getLast?.or previous = before.getLast?.or (some c) := by
  rw [List.getLast?_cons]
  cases before.getLast? <;> rfl

/-- A run starts at the head of a text or further on, behind the first character. -/
theorem runsAt_cons : mark.RunsAt previous offset (c :: rest) start ↔
    (start = offset ∧ mark.Heads previous (c :: rest)) ∨
      mark.RunsAt (some c) (offset + 1) rest start := by
  constructor
  · rintro ⟨before, after, whole, rfl, heads⟩
    cases before with
    | nil =>
        obtain rfl : c :: rest = after := whole
        exact .inl ⟨rfl, heads⟩
    | cons first before =>
        obtain ⟨rfl, rfl⟩ := List.cons.inj whole
        rw [getLast?_cons_or] at heads
        exact .inr ⟨before, after, rfl, by simp only [List.length_cons]; omega, heads⟩
  · rintro (⟨rfl, heads⟩ | ⟨before, after, rfl, rfl, heads⟩)
    · exact ⟨[], c :: rest, rfl, rfl, heads⟩
    · refine ⟨c :: before, after, rfl, by simp only [List.length_cons]; omega, ?_⟩
      rwa [getLast?_cons_or]

theorem runsAt_next (apart : ¬ mark.Heads previous (c :: rest)) :
    mark.RunsAt previous offset (c :: rest) start ↔ mark.RunsAt (some c) (offset + 1) rest start := by
  rw [runsAt_cons, or_iff_right fun found => apart found.2]

/-- No run starts behind its own character. -/
theorem not_heads_behind : ¬ mark.Heads (some c) (c :: rest) :=
  fun heads => absurd heads.head?_eq heads.fresh

theorem not_runsAt_nil : ¬ mark.RunsAt previous offset [] start := by
  rintro ⟨before, after, whole, -, heads⟩
  have none := (List.append_eq_nil_iff.1 whole.symm).2
  have some := heads.head?_eq
  simp [none] at some

/-- The search finds the runs of a text and nothing else. -/
theorem mem_find : (start, mark) ∈ find previous offset text ↔
    mark.RunsAt previous offset text start := by
  fun_induction find previous offset text with
  | case1 => simp [not_runsAt_nil]
  | case2 previous offset rest alone ih =>
      simp only [Bool.and_eq_true, decide_eq_true_eq] at alone
      rw [List.mem_cons, ih, runsAt_cons, heads_dots, runsAt_next not_heads_behind,
        runsAt_next not_heads_behind]
      simp [alone, and_comm]
  | case3 previous offset rest more ih =>
      simp only [Bool.and_eq_true, decide_eq_true_eq] at more
      rw [ih, runsAt_next fun heads => more (heads_dots.1 heads).2]
  | case4 previous offset rest alone ih =>
      simp only [Bool.and_eq_true, decide_eq_true_eq] at alone
      rw [List.mem_cons, ih, runsAt_cons, heads_dashes, runsAt_next not_heads_behind]
      simp [alone, and_comm]
  | case5 previous offset rest more ih =>
      simp only [Bool.and_eq_true, decide_eq_true_eq] at more
      rw [ih, runsAt_next fun heads => more (heads_dashes.1 heads).2]
  | case6 previous offset c rest noDots noDashes ih =>
      rw [ih, runsAt_next]
      rintro ⟨-, after, whole, -⟩
      cases mark with
      | ellipsis =>
          obtain ⟨first, behind⟩ := List.cons.inj whole
          exact noDots after first behind
      | dash =>
          obtain ⟨first, behind⟩ := List.cons.inj whole
          exact noDashes after first behind

example : find none 0 "a...b--c---d....".toList = [(1, ellipsis), (5, dash)] := by decide +kernel

theorem le_of_mem_find {found : Nat × Punctuation} (member : found ∈ find previous offset text) :
    offset ≤ found.1 := by
  obtain ⟨before, -, -, start, -⟩ := mem_find.1 member
  omega

/-- Runs are found one after another. -/
theorem find_ordered (previous : Option Char) (offset : Nat) (text : Text) :
    (find previous offset text).Pairwise fun a b => a.1 + a.2.length ≤ b.1 := by
  fun_induction find previous offset text with
  | case1 => exact .nil
  | case2 previous offset rest alone ih => exact .cons (fun found member => le_of_mem_find member) ih
  | case3 previous offset rest more ih => exact ih
  | case4 previous offset rest alone ih => exact .cons (fun found member => le_of_mem_find member) ih
  | case5 previous offset rest more ih => exact ih
  | case6 previous offset c rest noDots noDashes ih => exact ih

theorem RunsAt.exists_head (runs : mark.RunsAt none 0 text start) : ∃ before after,
    text = before ++ mark.char :: after ∧ before.length = start := by
  obtain ⟨before, after, rfl, rfl, heads⟩ := runs
  obtain ⟨rest, rfl⟩ := List.head?_eq_some_iff.1 heads.head?_eq
  exact ⟨before, rest, rfl, (Nat.zero_add _).symm⟩

end Punctuation

namespace Rule

open Punctuation

/-- What is said of punctuation that should be a character of its own. -/
def punctuationNote (document : Document) (start : Nat) (mark : Punctuation) : Diagnostic where
  code := Notice.styleGuide.code
  message := "Choice of Games style requires a Unicode " ++ mark.description
  range := ⟨document.positionAt start, document.positionAt (start + mark.length),
    Document.positionAt_mono (by omega)⟩
  severity := Notice.styleGuide.severity
  hint := Notice.styleGuide.hint
  category := some Notice.styleGuide.category

theorem punctuation_note (document : Document) (start : Nat) (mark : Punctuation) :
    Notice.styleGuide.between document start (start + mark.length)
      [("description", mark.description)] = .ok (punctuationNote document start mark) := by
  have le : (start : Int) ≤ start + mark.length := by omega
  rw [Notice.between, Document.rangeAt_eq le]
  cases mark <;> rfl

/-- Neither dots nor dashes are part of the command or its padding. -/
theorem lineCommand_eq_comment {text : Text} {start : Nat} {mark : Punctuation}
    (runs : mark.RunsAt none 0 text start) :
    text.lineCommand start = "comment" ↔ text.InComment start := by
  obtain ⟨before, after, rfl, rfl⟩ := runs.exists_head
  cases mark with
  | ellipsis => exact Text.lineCommand_eq_comment_iff (by decide) (by decide) (by decide) (by decide)
  | dash => exact Text.lineCommand_eq_comment_iff (by decide) (by decide) (by decide) (by decide)

/-- The rule reports the runs of just three dots and just two dashes that are in no comment, each once
and in the order of the text. -/
theorem punctuation_reports_runs (inspection : Inspection) : ∃ runs : List (Nat × Punctuation),
    (runs.Pairwise fun a b => a.1 + a.2.length ≤ b.1) ∧
    (∀ start mark, (start, mark) ∈ runs ↔ mark.RunsAt none 0 inspection.document.text start ∧
      ¬ inspection.document.text.InComment start) ∧
    punctuation.run inspection =
      .ok (runs.map fun run => punctuationNote inspection.document run.1 run.2) := by
  refine ⟨(find none 0 inspection.document.text).filter fun run =>
    inspection.document.text.lineCommand run.1 ≠ "comment", ?_, fun start mark => ?_, ?_⟩
  · exact (find_ordered none 0 inspection.document.text).sublist List.filter_sublist
  · rw [List.mem_filter, mem_find, decide_eq_true_eq]
    exact and_congr_right fun runs => not_congr (lineCommand_eq_comment runs)
  · exact Outcome.mapM_eq fun run _ => punctuation_note inspection.document run.1 run.2

end Rule

end ChoiceScript
