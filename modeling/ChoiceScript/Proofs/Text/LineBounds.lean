import Mathlib.Order.Bounds.Basic
import ChoiceScript.Proofs.Document.LineTable
import ChoiceScript.Proofs.Rule.LineCommand
import ChoiceScript.Proofs.Text.Lines

/-! # Where lines begin and end

A line goes up to its line feed, and it begins behind the line feed before. At a line feed itself the two
searches part: the line feed still belongs to the line that ends with it, but what begins there is taken to be
the next line. Where carriage returns stand before line feeds only, lines end where the table of a document's
lines says.
-/

namespace ChoiceScript.Text

/-- One past the last line feed before an offset, or zero where there is none. -/
def BehindFeed (text : Text) (offset place : Nat) : Prop :=
  (∃ feed, IsGreatest {before | before < offset ∧ text[before]? = some '\n'} feed ∧ place = feed + 1) ∨
    place = 0 ∧ ∀ before < offset, text[before]? ≠ some '\n'

variable {text : Text} {start last place : Nat}

/-- Where a carriage return stands before a line feed only, lines start behind line feeds. -/
theorem mem_lineStarts_of_paired
    (paired : ∀ place, text[place]? = some '\r' → text[place + 1]? = some '\n') :
    start ∈ lineStarts text ↔ start = 0 ∨ ∃ feed, start = feed + 1 ∧ text[feed]? = some '\n' := by
  rw [lineStarts, List.mem_cons, mem_breakEnds]
  refine or_congr_right (exists_congr fun last => ?_)
  rw [Nat.zero_add]
  refine and_congr_right fun _ => ⟨fun ends => ?_, .inl⟩
  rcases ends with feed | ⟨turn, alone⟩
  · exact feed
  · exact absurd (paired last turn) alone

/-- Where a carriage return stands before a line feed only, a line ends where the next one starts by the
table, the last at the end of the text. -/
theorem LineLast.next_start (ends : LineLast text start last)
    (paired : ∀ place, text[place]? = some '\r' → text[place + 1]? = some '\n') :
    IsLeast {entry | entry ∈ lineStarts text ∧ start < entry} (last + 1) ∨
      (∀ entry ∈ lineStarts text, entry ≤ start) ∧ last + 1 = text.length := by
  have behind {entry : Nat} (member : entry ∈ lineStarts text) (later : start < entry) :
      last + 1 ≤ entry ∧ (entry = last + 1 → text[last]? = some '\n') := by
    rcases (mem_lineStarts_of_paired paired).1 member with rfl | ⟨feed, rfl, found⟩
    · omega
    · have := mt (ends.plain feed (Nat.le_of_lt_succ later)) (not_not_intro found)
      exact ⟨by omega, fun same => Nat.succ.inj same ▸ found⟩
  by_cases feed : text[last]? = some '\n'
  · refine .inl ⟨⟨(mem_lineStarts_of_paired paired).2 (.inr ⟨last, rfl, feed⟩), ?_⟩, ?_⟩
    · exact Nat.lt_succ_of_le ends.later
    · exact fun entry found => (behind found.1 found.2).1
  · have final : last + 1 = text.length := ends.ends.resolve_left feed
    refine .inr ⟨fun entry member => ?_, final⟩
    by_contra past
    obtain ⟨reach, only⟩ := behind member (Nat.not_le.1 past)
    have bound := (lineStarts_isLineTable text).inside entry member
    exact feed (only (by omega))

theorem BehindFeed.le (behind : BehindFeed text start place) : place ≤ start := by
  rcases behind with ⟨feed, greatest, rfl⟩ | ⟨rfl, -⟩
  · exact greatest.1.1
  · exact Nat.zero_le _

theorem BehindFeed.plain (behind : BehindFeed text start place) :
    ∀ between, place ≤ between → between < start → text[between]? ≠ some '\n' := by
  intro between from_ upto feed
  rcases behind with ⟨last, greatest, rfl⟩ | ⟨rfl, none⟩
  · have := greatest.2 ⟨upto, feed⟩
    omega
  · exact none between upto feed

/-- A character that is no line feed makes no difference to the last line feed before. -/
theorem behindFeed_succ_iff (plain : text[start]? ≠ some '\n') :
    BehindFeed text (start + 1) place ↔ BehindFeed text start place := by
  have same (before : Nat) :
      before < start + 1 ∧ text[before]? = some '\n' ↔ before < start ∧ text[before]? = some '\n' := by
    refine and_congr_left fun feed => ?_
    have : before ≠ start := fun same => plain (same ▸ feed)
    omega
  refine or_congr ?_ (and_congr_right fun _ => ?_)
  · simp only [same]
  · exact forall_congr' fun before => by simpa only [not_and] using not_congr (same before)

/-- The search for the beginning of a line looks at the character at the offset too. -/
theorem behindFeed_lineBegin (text : Text) (start : Nat) :
    BehindFeed text (start + 1) (lineBegin text start) := by
  obtain ⟨before, line, cut, starts, plain⟩ := exists_lastLine (text.take (start + 1))
  rw [lineBegin_of_take cut starts plain]
  have at_ {place : Nat} (upto : place < start + 1) : text[place]? = (before ++ line)[place]? := by
    rw [← cut, List.getElem?_take_of_lt upto]
  have short := congrArg List.length cut
  rw [List.length_take, List.length_append] at short
  have solid {place : Nat} (behind : before.length ≤ place) (upto : place < start + 1) :
      text[place]? ≠ some '\n' := by
    rw [at_ upto, List.getElem?_append_right behind]
    exact fun feed => plain (List.mem_of_getElem? feed)
  cases List.eq_nil_or_concat before with
  | inl none =>
      subst none
      exact .inr ⟨rfl, fun place upto => solid (Nat.zero_le _) upto⟩
  | inr some =>
      obtain ⟨front, c, rfl⟩ := some
      rw [List.concat_eq_append] at *
      obtain rfl : c = '\n' := starts c (by simp)
      rw [List.length_append, List.length_singleton] at *
      have upto : front.length < start + 1 := by omega
      refine .inl ⟨front.length, ⟨⟨upto, ?_⟩, fun place found => ?_⟩, rfl⟩
      · rw [at_ upto]
        simp
      · by_contra behind
        exact solid (by omega) found.1 found.2

/-- In the text, a line begins behind the last line feed at an offset or before it. That is a line feed before
the offset, the line begins no later than at the offset, and it ends where the line of the offset does, if and
only if no line feed stands at the offset itself. -/
theorem lineBegin_holds_iff {text : Text} {start : Nat} (inside : start < text.length) :
    BehindFeed text (start + 1) (lineBegin text start) ∧
    (BehindFeed text start (lineBegin text start) ↔ text[start]? ≠ some '\n') ∧
    (lineBegin text start ≤ start ↔ text[start]? ≠ some '\n') ∧
    (lineEnd? text (lineBegin text start) = lineEnd? text start ↔ text[start]? ≠ some '\n') := by
  have begins := behindFeed_lineBegin text start
  obtain ⟨last, ends, stops⟩ := exists_lineLast inside
  by_cases feed : text[start]? = some '\n'
  · have next : lineBegin text start = start + 1 := by
      have := begins.le
      by_contra apart
      exact begins.plain start (by omega) (Nat.lt_succ_self start) feed
    have later : lineEnd? text (start + 1) ≠ some (start + 1) := by
      rw [Ne, lineEnd?_eq_some_iff]
      rintro ⟨last, same, ends⟩
      have := ends.later
      omega
    have here : lineEnd? text start = some (start + 1) :=
      lineEnd?_eq_some_iff.2 ⟨start, rfl, Nat.le_refl _, inside, by omega, .inl feed⟩
    rw [next] at begins ⊢
    refine ⟨begins, ?_, ?_, ?_⟩ <;> simp only [feed, ne_eq, not_true, iff_false]
    · exact fun behind => absurd behind.le (Nat.not_succ_le_self start)
    · exact Nat.not_succ_le_self start
    · rwa [here]
  · have behind := (behindFeed_succ_iff feed).1 begins
    have same := lineEnd?_eq_some_iff.2 ⟨last, rfl, ends.earlier behind.le behind.plain⟩
    refine ⟨begins, ?_, ?_, ?_⟩ <;> simp only [feed, ne_eq, not_false_eq_true, iff_true]
    · exact behind
    · exact behind.le
    · rw [same, stops]

/-- A line that ends in a carriage return and a line feed, with a line after it. -/
def pairedLine : Text := "ab\r\ncd".toList

theorem pairedLine_begins : 5 < pairedLine.length ∧ 3 < pairedLine.length ∧
    BehindFeed pairedLine 5 (lineBegin pairedLine 5) ∧ lineBegin pairedLine 5 ≤ 5 ∧
    lineEnd? pairedLine (lineBegin pairedLine 5) = lineEnd? pairedLine 5 ∧
    ¬ lineBegin pairedLine 3 ≤ 3 := by
  have inside : 5 < pairedLine.length := by decide
  have feed : 3 < pairedLine.length := by decide
  obtain ⟨-, behind, before, same⟩ := lineBegin_holds_iff inside
  obtain ⟨-, -, past, -⟩ := lineBegin_holds_iff feed
  exact ⟨inside, feed, behind.2 (by decide), before.2 (by decide), same.2 (by decide),
    mt past.1 (by decide)⟩

/-- A line with its line feed. -/
def fedLine : Text := "a\n".toList

/-- At its own line feed a line is left. It begins at zero, but what is found begins behind the line feed,
where no line ends. -/
theorem lineBegin_leaves_line : 1 < fedLine.length ∧ BehindFeed fedLine 1 0 ∧
    ¬ BehindFeed fedLine 1 (lineBegin fedLine 1) ∧ ¬ lineBegin fedLine 1 ≤ 1 ∧
    lineEnd? fedLine (lineBegin fedLine 1) ≠ lineEnd? fedLine 1 := by
  have found : lineBegin fedLine 1 = 2 := by decide
  refine ⟨by decide, .inr ⟨rfl, by decide⟩, fun behind => ?_, by decide, by decide⟩
  have := behind.le
  omega

end ChoiceScript.Text
