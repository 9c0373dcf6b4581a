import Mathlib.Data.Nat.Find
import ChoiceScript.Proofs.Mention.Inline
import ChoiceScript.Proofs.Nesting.Inline
import ChoiceScript.Proofs.Text.Delimiter

/-! # Multireplaces in the body of another

A multireplace that stands in no other tells of the first multireplace that opens behind its test. The
braces between its own are balanced, so the one that opens there is closed there.
-/

namespace ChoiceScript

namespace Opener

/-- What a multireplace opens with. -/
def multireplaces : List Text := [['@', '{'], ['@', '!', '{'], ['@', '!', '!', '{']]

theorem multireplaceAt?_eq_some_iff {text : Text} {opener : Opener} :
    multireplaceAt? text = some opener ↔
      ∃ sign ∈ multireplaces, sign <+: text ∧ opener = ⟨.multireplace, sign.length⟩ := by
  rw [multireplaceAt?, Option.filter_eq_some_iff]
  constructor
  · rintro ⟨found, kind⟩
    unfold at? bangsToBrace? at found
    split at found <;> simp only [Option.map_eq_some_iff, reduceCtorEq] at found
    · obtain ⟨length, -, rfl⟩ := found
      simp at kind
    · obtain ⟨length, bangs, rfl⟩ := found
      split at bangs <;> simp only [Option.some.injEq, reduceCtorEq] at bangs
      all_goals
        subst bangs
        simp [multireplaces]
  · rintro ⟨sign, known, ⟨rest, rfl⟩, rfl⟩
    simp only [multireplaces, List.mem_cons, List.not_mem_nil, or_false] at known
    rcases known with rfl | rfl | rfl <;> exact ⟨rfl, rfl⟩

/-- The place that is sought is the first one where something is found. -/
theorem seek_eq_some_iff {α : Type} {found : Text → Option α} (nothing : found [] = none) {text : Text}
    {skipped : Nat} {value : α} : seek found text = some (skipped, value) ↔
      found (text.drop skipped) = some value ∧ ∀ earlier < skipped, found (text.drop earlier) = none := by
  induction text generalizing skipped with
  | nil => simp [seek, nothing]
  | cons c rest ih =>
      cases here : found (c :: rest) with
      | some other =>
          cases skipped with
          | zero => simp [seek, here]
          | succ skipped =>
              refine iff_of_false (by simp [seek, here]) fun both => ?_
              simpa [here] using both.2 0 (Nat.succ_pos _)
      | none =>
          cases skipped with
          | zero => simp [seek, here]
          | succ skipped =>
              have before : (∀ earlier < skipped + 1, found ((c :: rest).drop earlier) = none) ↔
                  ∀ earlier < skipped, found (rest.drop earlier) = none := by
                rw [Nat.forall_lt_succ_left, List.drop_zero]
                simp only [here, true_and, List.drop_succ_cons]
              rw [List.drop_succ_cons, before, ← ih]
              simp [seek, here]

/-- Behind so many characters a text has an opener of a multireplace, and no earlier one. -/
structure OpensFirst (text : Text) (skipped : Nat) (sign : Text) : Prop where
  known : sign ∈ multireplaces
  here : sign <+: text.drop skipped
  first : ∀ earlier < skipped, ∀ other ∈ multireplaces, ¬ other <+: text.drop earlier

theorem OpensFirst.seek {text sign : Text} {skipped : Nat} (opens : OpensFirst text skipped sign) :
    Opener.seek multireplaceAt? text = some (skipped, ⟨.multireplace, sign.length⟩) := by
  refine (seek_eq_some_iff rfl).2 ⟨?_, fun earlier before => ?_⟩
  · exact multireplaceAt?_eq_some_iff.2 ⟨sign, opens.known, opens.here, rfl⟩
  · rw [Option.eq_none_iff_forall_ne_some]
    intro opener found
    obtain ⟨other, known, there, -⟩ := multireplaceAt?_eq_some_iff.1 found
    exact opens.first earlier before other known there

/-- Where a text has an opener at all, it has a first one. -/
theorem exists_opensFirst {text sign : Text} (known : sign ∈ multireplaces) (contains : sign <:+: text) :
    ∃ skipped first, OpensFirst text skipped first := by
  have some : ∃ skipped, ∃ other ∈ multireplaces, other <+: text.drop skipped := by
    obtain ⟨before, after, rfl⟩ := contains
    exact ⟨before.length, sign, known, by simp⟩
  obtain ⟨other, listed, here⟩ := Nat.find_spec some
  refine ⟨Nat.find some, other, listed, here, fun earlier before sign known there => ?_⟩
  exact Nat.find_min some before ⟨sign, known, there⟩

/-- An opener ends in the brace that it opens. -/
theorem brace_of_mem_multireplaces {sign : Text} (known : sign ∈ multireplaces) :
    2 ≤ sign.length ∧ sign[sign.length - 1]? = some '{' := by
  simp only [multireplaces, List.mem_cons, List.not_mem_nil, or_false] at known
  rcases known with rfl | rfl | rfl <;> exact ⟨by decide, rfl⟩

end Opener

namespace Multireplace

variable {text : Text} {start skipped : Nat} {multireplace : Multireplace} {sign : Text}

/-- What stands between the test of a multireplace and its closing brace. -/
def body (multireplace : Multireplace) (text : Text) : Text :=
  (text.take (multireplace.stop - 1)).drop multireplace.test.stop

/-- What opens in the body of a multireplace closes before the multireplace does. -/
theorem exists_inner_of_opensFirst (closed : read? text start = some multireplace)
    (opens : Opener.OpensFirst (multireplace.body text) skipped sign) :
    ∃ inner, Text.matchingSpan text '{' '}' (multireplace.test.stop + skipped + sign.length) = some inner ∧
      multireplace.test.stop + skipped + sign.length + inner.length < multireplace.stop - 1 := by
  have after := (inOrder_of_read? closed).start_le
  have test : multireplace.test.start ≤ multireplace.test.stop := Nat.le_add_right _ _
  obtain ⟨contents, span, rfl⟩ := Option.map_eq_some_iff.1 closed
  have stop := (ofContents_frame contents start).2
  generalize ofContents contents start = multireplace at *
  obtain ⟨long, last⟩ := Opener.brace_of_mem_multireplaces opens.known
  -- the brace of the opener stands in the contents, which are balanced
  have brace := Document.getElem?_of_prefix_drop opens.here last
  rw [body, List.getElem?_drop, List.getElem?_take] at brace
  split at brace
  · rename_i inside
    obtain ⟨place, offset⟩ := Nat.exists_eq_add_of_le
      (show start ≤ multireplace.test.stop + (skipped + (sign.length - 1)) by omega)
    have here : contents[place]? = some '{' := by
      rw [offset, ← List.getElem?_drop] at brace
      rw [List.prefix_iff_eq_take.1 (Text.matchingSpan_prefix span), List.getElem?_take,
        if_pos (by omega), brace]
    obtain ⟨inner, found, closes⟩ := Text.matchingSpan_nested (by decide) span here
    have within := (List.getElem?_eq_some_iff.1 closes).1
    have same : multireplace.test.stop + skipped + sign.length = start + place + 1 := by omega
    exact ⟨inner, same ▸ found, by omega⟩
  · cases brace

end Multireplace

namespace Parser

variable {source : Source} {context : Context} {text sign inner : Text} {openLength origin : Int}
  {start skipped : Nat} {found : Multireplace} {diagnostic : Diagnostic}

/-- It is told of the first multireplace that opens in the body, from its opener to its brace. -/
theorem complainNested_eq (opens : Opener.OpensFirst (found.body text) skipped sign)
    (closes : Text.matchingSpan text '{' '}' (found.test.stop + skipped + sign.length) = some inner) :
    complainNested text found origin = complain .multireplaceNested (found.test.stop + skipped + origin)
      (found.test.stop + skipped + sign.length + inner.length + 1 + origin) [] := by
  have first := opens.seek
  rw [Multireplace.body] at first
  simp only [complainNested, first, closes]
  rfl

/-- Whatever is added of what nests, there is nothing to show of it. -/
theorem adds_of_nests {holds : List Report → Prop} {parser : Parser Unit}
    (nests : Nests source Event.RefersByWord context parser) (all : ∀ new, holds new) :
    Adds source context True (fun _ => True) holds parser :=
  Adds.mono nests (fun _ given => given) fun new _ => all new

section Told

variable (closed : Multireplace.read? text start = some found)
  (opens : Opener.OpensFirst (found.body text) skipped sign)
  (closes : Text.matchingSpan text '{' '}' (found.test.stop + skipped + sign.length) = some inner)
  (made : Notice.multireplaceNested.between source.document (found.test.stop + skipped + origin)
    (found.test.stop + skipped + sign.length + inner.length + 1 + origin) [] = .ok diagnostic)

include closed opens closes made

/-- What opens in the body is the first thing that is told of. -/
theorem tells_multireplaceContents {descend : Descent text.length}
    (nests : descend.Nests source Event.RefersByWord) :
    Adds source context True (fun _ => True) (fun new => ∃ told, new = .error diagnostic :: told)
      (multireplaceContents text descend openLength origin start false) := by
  unfold multireplaceContents
  dsimp only
  split
  · rename_i none
    cases closed.symm.trans none
  · rename_i multireplace read
    cases closed.symm.trans read
    rw [if_neg Bool.false_ne_true, complainNested_eq opens closes]
    apply Adds.afterError made
    refine adds_of_nests ?_ fun told => ⟨told, rfl⟩
    split
    · exact .complain (by decide)
    · exact .complain (by decide)
    · exact .complain (by decide)
    · exact (nests _ _ _ _).bind fun _ => nests_optionsWith (fun _ held => held.1) nests _

theorem tells_multireplace (outside : .multireplacement ∉ context.stack) :
    Adds source context True (fun _ => True) (fun new => ∃ told, new = .error diagnostic :: told)
      (multireplace text openLength origin start) := by
  apply Adds.afterIsInside
  have single : context.stack.contains Element.multireplacement = false := by simpa using outside
  rw [single]
  apply Adds.within
  apply Adds.giving
  exact tells_multireplaceContents closed opens closes made (nests_descent text.length)

end Told

/-- A multireplace that is closed and in no other tells once of the multireplaces that open between its
test and its brace: of the first one, from its opener to the brace that closes it, which stands before
its own. That is the first thing that is told when it is read. -/
theorem nested_told_once (source : Source) {progress : Progress}
    (outside : .multireplacement ∉ progress.stack) {text : Text} {start : Nat} {found : Multireplace}
    (closed : Multireplace.read? text start = some found) {sign : Text}
    (known : sign ∈ Opener.multireplaces) (contains : sign <:+: found.body text)
    (openLength : Nat) (origin : Int) :
    ∃ skipped first inner diagnostic told, Opener.OpensFirst (found.body text) skipped first ∧
      Text.matchingSpan text '{' '}' (found.test.stop + skipped + first.length) = some inner ∧
      found.test.stop + skipped + first.length + inner.length < found.stop - 1 ∧
      Notice.multireplaceNested.between source.document (found.test.stop + skipped + origin)
        (found.test.stop + skipped + first.length + inner.length + 1 + origin) [] = .ok diagnostic ∧
      (∀ before, complainNested text found origin source before =
        (.ok (), { before with reports := before.reports ++ [.error diagnostic] })) ∧
      multireplace text openLength origin start source progress =
        (.ok (Multireplace.resume text start),
          { progress with reports := progress.reports ++ .error diagnostic :: told }) := by
  obtain ⟨skipped, first, opens⟩ := Opener.exists_opensFirst known contains
  obtain ⟨inner, closes, before⟩ := Multireplace.exists_inner_of_opensFirst closed opens
  obtain ⟨diagnostic, made⟩ : ∃ diagnostic, Notice.multireplaceNested.between source.document
      (found.test.stop + skipped + origin)
      (found.test.stop + skipped + first.length + inner.length + 1 + origin) [] = .ok diagnostic :=
    Notice.exists_between (by omega) rfl
  have inside : start ≤ text.length := by
    have placed := Multireplace.placed_of_read? closed
    have := placed.stop
    have := placed.stop_le
    omega
  have lays : Lays source ⟨progress.command, progress.stack⟩ False (· = Multireplace.resume text start)
      (start - openLength + origin) (origin + text.length) (start + origin)
      (Multireplace.resume text start + origin) (multireplace text openLength origin start) :=
    lays_multireplaceWith (lays_descent text.length) (Int.natCast_nonneg _) inside (Int.le_refl _)
      (Int.le_refl _)
  have tells : Adds source ⟨progress.command, progress.stack⟩ True (fun _ => True)
      (fun new => ∃ told, new = .error diagnostic :: told) (multireplace text openLength origin start) :=
    tells_multireplace closed opens closes made outside
  obtain ⟨outcome, new, settles, -, ran⟩ := lays
  obtain ⟨_, _, -, ⟨told, rfl⟩, again⟩ := tells
  have run := ran source.document.version progress.reports
  obtain ⟨-, same⟩ := Prod.mk.inj (run.symm.trans (again source.document.version progress.reports))
  obtain rfl : new = .error diagnostic :: told := by simpa using same
  cases outcome with
  | error fault => exact settles.elim
  | ok value =>
      obtain rfl : value = Multireplace.resume text start := settles
      refine ⟨skipped, first, inner, diagnostic, told, opens, closes, before, made, fun before => ?_, run⟩
      rw [complainNested_eq opens closes]
      simp only [complain, made, report]

/-- Braces around a word in the body, and after it another multireplace with braces of its own. -/
def nestedChoice : Text := "@\x7bx \x7ba\x7d|@!\x7by \x7bb\x7d|c\x7d\x7d".toList

def nestedChoiceSource : Source := ⟨⟨"file:///game/a.txt", nestedChoice, 0⟩, "startup.txt"⟩

def nestedChoiceParts : Multireplace :=
  ⟨⟨"x".toList, 2⟩, [⟨"\x7ba\x7d".toList, 4⟩, ⟨"@!\x7by \x7bb\x7d".toList, 8⟩, ⟨"c\x7d".toList, 17⟩],
    "x \x7ba\x7d|@!\x7by \x7bb\x7d|c\x7d".toList, 20⟩

theorem nestedChoice_told_once : Element.multireplacement ∉ ([] : List Element) ∧
    Multireplace.read? nestedChoice 2 = some nestedChoiceParts ∧
    ['@', '!', '{'] ∈ Opener.multireplaces ∧ ['@', '!', '{'] <:+: nestedChoiceParts.body nestedChoice ∧
    ∃ skipped first inner diagnostic told,
      Opener.OpensFirst (nestedChoiceParts.body nestedChoice) skipped first ∧
      Text.matchingSpan nestedChoice '{' '}' (3 + skipped + first.length) = some inner ∧
      3 + skipped + first.length + inner.length < 19 ∧
      Notice.multireplaceNested.between nestedChoiceSource.document ((3 : Nat) + skipped + 0)
        ((3 : Nat) + skipped + first.length + inner.length + 1 + 0) [] = .ok diagnostic ∧
      (∀ before, complainNested nestedChoice nestedChoiceParts 0 nestedChoiceSource before =
        (.ok (), { before with reports := before.reports ++ [.error diagnostic] })) ∧
      multireplace nestedChoice (2 : Nat) 0 2 nestedChoiceSource {} =
        (.ok (Multireplace.resume nestedChoice 2), { reports := [] ++ .error diagnostic :: told }) := by
  have outside : Element.multireplacement ∉ ({} : Progress).stack := List.not_mem_nil
  have closed : Multireplace.read? nestedChoice 2 = some nestedChoiceParts := by decide +kernel
  have known : ['@', '!', '{'] ∈ Opener.multireplaces := by decide
  have contains : ['@', '!', '{'] <:+: nestedChoiceParts.body nestedChoice := by decide +kernel
  exact ⟨outside, closed, known, contains,
    nested_told_once nestedChoiceSource outside closed known contains 2 0⟩

end Parser

end ChoiceScript
