import ChoiceScript.Document.Basic

/-! # The line table

Line starts are zero and the ends of the line breaks. They rise strictly and stay inside the text,
so every offset has exactly one line. Turning an offset into a position and back gives the offset
again, cut to the text, and both ways keep the order: a range between two offsets in order is never
reversed.
-/

namespace ChoiceScript

namespace Text

/-- Line breaks end past where the text starts and not past where it stops. -/
theorem breakEnds_bounds {offset : Nat} {text : Text} {stop : Nat}
    (member : stop ∈ breakEnds offset text) : offset < stop ∧ stop ≤ offset + text.length := by
  fun_induction breakEnds offset text with
  | case1 => simp at member
  | case2 offset rest ih =>
      simp only [List.length_cons]
      rcases List.mem_cons.1 member with rfl | later
      · omega
      · have := ih later
        omega
  | case3 offset c rest single isBreak ih =>
      simp only [List.length_cons]
      rcases List.mem_cons.1 member with rfl | later
      · omega
      · have := ih later
        omega
  | case4 offset c rest single noBreak ih =>
      have := ih member
      simp only [List.length_cons]
      omega

theorem breakEnds_increasing (offset : Nat) (text : Text) :
    (breakEnds offset text).Pairwise (· < ·) := by
  fun_induction breakEnds offset text with
  | case1 => exact .nil
  | case2 offset rest ih => exact .cons (fun _ member => (breakEnds_bounds member).1) ih
  | case3 offset c rest single isBreak ih =>
      exact .cons (fun _ member => (breakEnds_bounds member).1) ih
  | case4 offset c rest single noBreak ih => exact ih

theorem lineStarts_increasing (text : Text) : (lineStarts text).Pairwise (· < ·) :=
  .cons (fun _ member => (breakEnds_bounds member).1) (breakEnds_increasing 0 text)

/-- A line break of a text, from one offset up to another. A carriage return and a line feed after
it are one break; alone, each of the two is a break of its own. -/
inductive LineBreak (text : Text) : Nat → Nat → Prop
  | pair {start : Nat} (turn : text[start]? = some '\r') (feed : text[start + 1]? = some '\n') :
      LineBreak text start (start + 2)
  | feed {start : Nat} (feed : text[start]? = some '\n')
      (alone : ∀ before, start = before + 1 → text[before]? ≠ some '\r') :
      LineBreak text start (start + 1)
  | turn {start : Nat} (turn : text[start]? = some '\r')
      (alone : text[start + 1]? ≠ some '\n') : LineBreak text start (start + 1)

/-- A line break stops after a line feed, or after a carriage return without one. -/
theorem exists_lineBreak {text : Text} {stop : Nat} :
    (∃ start, LineBreak text start stop) ↔ ∃ last, stop = last + 1 ∧
      (text[last]? = some '\n' ∨ text[last]? = some '\r' ∧ text[last + 1]? ≠ some '\n') := by
  constructor
  · rintro ⟨start, broken⟩
    cases broken with
    | pair turn feed => exact ⟨start + 1, rfl, .inl feed⟩
    | feed feed alone => exact ⟨start, rfl, .inl feed⟩
    | turn turn alone => exact ⟨start, rfl, .inr ⟨turn, alone⟩⟩
  · rintro ⟨last, rfl, feed | ⟨turn, alone⟩⟩
    · by_cases paired : ∃ before, last = before + 1 ∧ text[before]? = some '\r'
      · obtain ⟨before, rfl, turn⟩ := paired
        exact ⟨before, .pair turn feed⟩
      · exact ⟨last, .feed feed fun before same turn => paired ⟨before, same, turn⟩⟩
    · exact ⟨last, .turn turn alone⟩

theorem mem_breakEnds {offset : Nat} {text : Text} {stop : Nat} :
    stop ∈ breakEnds offset text ↔ ∃ last, stop = offset + last + 1 ∧
      (text[last]? = some '\n' ∨ text[last]? = some '\r' ∧ text[last + 1]? ≠ some '\n') := by
  fun_induction breakEnds offset text with
  | case1 => simp
  | case2 offset rest ih =>
      rw [List.mem_cons, ih]
      constructor
      · rintro (rfl | ⟨last, rfl, ends⟩)
        · exact ⟨1, rfl, .inl rfl⟩
        · exact ⟨last + 2, by omega, ends⟩
      · rintro ⟨last, rfl, ends⟩
        rcases last with _ | _ | last
        · simp at ends
        · exact .inl (by omega)
        · exact .inr ⟨last, by omega, ends⟩
  | case3 offset c rest single isBreak ih =>
      rw [List.mem_cons, ih]
      constructor
      · rintro (rfl | ⟨last, rfl, ends⟩)
        · refine ⟨0, rfl, ?_⟩
          rcases isBreak with rfl | rfl
          · refine .inr ⟨rfl, fun feed => ?_⟩
            cases rest with
            | nil => simp at feed
            | cons next rest =>
                obtain rfl : next = '\n' := by simpa using feed
                exact single rest rfl rfl
          · exact .inl rfl
        · exact ⟨last + 1, by omega, ends⟩
      · rintro ⟨last, rfl, ends⟩
        cases last with
        | zero => exact .inl (by omega)
        | succ last => exact .inr ⟨last, by omega, ends⟩
  | case4 offset c rest single noBreak ih =>
      rw [ih]
      constructor
      · rintro ⟨last, rfl, ends⟩
        exact ⟨last + 1, by omega, ends⟩
      · rintro ⟨last, rfl, ends⟩
        cases last with
        | zero => exact absurd ends (by simp_all)
        | succ last => exact ⟨last, by omega, ends⟩

/-- The offsets at which the lines of a text start: in order, from the first offset of the text,
and just after each of its line breaks. -/
structure IsLineTable (text : Text) (starts : List Nat) : Prop where
  first : starts.head? = some 0
  increasing : starts.Pairwise (· < ·)
  inside : ∀ start ∈ starts, start ≤ text.length
  exact : ∀ start, start ∈ starts ↔ start = 0 ∨ ∃ place, LineBreak text place start

theorem lineStarts_isLineTable (text : Text) : IsLineTable text (lineStarts text) where
  first := rfl
  increasing := lineStarts_increasing text
  inside start member := by
    rcases List.mem_cons.1 member with rfl | later
    · exact Nat.zero_le _
    · simpa using (breakEnds_bounds later).2
  exact start := by
    rw [lineStarts, List.mem_cons, mem_breakEnds, exists_lineBreak]
    simp only [Nat.zero_add]

/-- Where a line starts, and the end of the text for a line that is not there. -/
def lineStart (text : Text) (line : Nat) : Nat := (lineStarts text)[line]?.getD text.length

theorem lineStart_le (text : Text) (line : Nat) : lineStart text line ≤ text.length := by
  rw [lineStart]
  cases found : (lineStarts text)[line]? with
  | none => exact Nat.le_refl _
  | some start => exact (lineStarts_isLineTable text).inside start (List.mem_of_getElem? found)

theorem lineStart_mono (text : Text) {first second : Nat} (le : first ≤ second) :
    lineStart text first ≤ lineStart text second := by
  rcases Nat.lt_or_ge second (lineStarts text).length with inside | past
  · simp only [lineStart, List.getElem?_eq_getElem inside,
      List.getElem?_eq_getElem (Nat.lt_of_le_of_lt le inside), Option.getD_some]
    rcases Nat.eq_or_lt_of_le le with rfl | less
    · exact Nat.le_refl _
    · exact Nat.le_of_lt (List.pairwise_iff_getElem.1 (lineStarts_increasing text) _ _ _ _ less)
  · have last : lineStart text second = text.length := by
      rw [lineStart, List.getElem?_eq_none past, Option.getD_none]
    rw [last]
    exact lineStart_le text first

end Text

namespace Document

theorem clamp_le (document : Document) (offset : Int) :
    document.clamp offset ≤ document.text.length := Nat.min_le_right _ _

theorem clamp_natCast {document : Document} {offset : Nat}
    (inside : offset ≤ document.text.length) : document.clamp offset = offset := by
  simp only [clamp, Int.toNat_natCast]
  exact Nat.min_eq_left inside

theorem clamp_eq (document : Document) (offset : Int) :
    (document.clamp offset : Int) = max 0 (min offset document.text.length) := by
  simp only [clamp]
  omega

theorem clamp_mono {document : Document} {first second : Int} (le : first ≤ second) :
    document.clamp first ≤ document.clamp second := by
  simp only [clamp]
  omega

theorem positionAt_clamp (document : Document) (offset : Int) :
    document.positionAt (document.clamp offset) = document.positionAt offset := by
  simp only [positionAt, clamp_natCast (document.clamp_le offset)]

/-- A position stands on the line that starts last at or before its offset. -/
theorem positionAt_line (document : Document) (offset : Int) :
    ∃ start, (Text.lineStarts document.text)[(document.positionAt offset).line]? = some start ∧
      start + (document.positionAt offset).character = document.clamp offset ∧
      ∀ next, (Text.lineStarts document.text)[(document.positionAt offset).line + 1]? = some next →
        document.clamp offset < next := by
  simp only [positionAt]
  generalize document.clamp offset = place
  generalize starts : (Text.lineStarts document.text).takeWhile (· ≤ place) = before
  have isPrefix : before <+: Text.lineStarts document.text := starts ▸ List.takeWhile_prefix _
  have nonempty : before ≠ [] := by
    rw [← starts, Text.lineStarts, List.takeWhile_cons_of_pos (by simp)]
    exact List.cons_ne_nil _ _
  have positive := List.length_pos_iff.2 nonempty
  have last : before.getLastD 0 = before.getLast nonempty := by
    rw [List.getLastD_eq_getLast?, List.getLast?_eq_some_getLast nonempty, Option.getD_some]
  have reached : before.getLast nonempty ≤ place := by
    have all : before.all (· ≤ place) = true := starts ▸ List.all_takeWhile
    simpa using List.all_eq_true.1 all _ (List.getLast_mem nonempty)
  refine ⟨before.getLast nonempty, ?_, by omega, ?_⟩
  · rw [← List.getLast?_eq_some_getLast nonempty, List.getLast?_eq_getElem?]
    obtain ⟨after, whole⟩ := isPrefix
    rw [← whole, List.getElem?_append_left (by omega)]
  · intro next found
    rw [Nat.sub_add_cancel positive, ← starts] at found
    have := Text.not_of_getElem?_takeWhile found
    simpa using this

/-- Turning an offset into a position and back gives the nearest offset of the text. -/
theorem offsetAt_positionAt (document : Document) (offset : Int) :
    document.offsetAt (document.positionAt offset) = document.clamp offset := by
  obtain ⟨start, line, column, before⟩ := document.positionAt_line offset
  simp only [offsetAt, line, column]
  refine Nat.min_eq_left ?_
  rw [List.getD_eq_getElem?_getD]
  cases next : (Text.lineStarts document.text)[(document.positionAt offset).line + 1]? with
  | none => exact document.clamp_le offset
  | some stop => exact Nat.le_of_lt (before stop next)

theorem positionAt_mono {document : Document} {first second : Int} (le : first ≤ second) :
    document.positionAt first ≤ document.positionAt second := by
  obtain ⟨start, line, column, -⟩ := document.positionAt_line first
  obtain ⟨start', line', column', before⟩ := document.positionAt_line second
  have ordered : document.clamp first ≤ document.clamp second := clamp_mono le
  rw [Position.le_def]
  rcases Nat.lt_trichotomy (document.positionAt first).line (document.positionAt second).line with
    earlier | same | later
  · exact .inl earlier
  · rw [same, line', Option.some.injEq] at line
    exact .inr ⟨same, by omega⟩
  -- the second offset would stand on an earlier line, before the start of the first one's line
  · exfalso
    have inside := (List.getElem?_eq_some_iff.1 line).1
    have short : (document.positionAt second).line + 1 < (Text.lineStarts document.text).length := by
      omega
    have early := before _ (List.getElem?_eq_getElem short)
    have reach := Text.lineStart_mono document.text (Nat.succ_le_of_lt later)
    simp only [Text.lineStart, Nat.succ_eq_add_one, line, List.getElem?_eq_getElem short,
      Option.getD_some] at reach
    omega

theorem rangeAt_eq {document : Document} {start stop : Int} (le : start ≤ stop) :
    document.rangeAt start stop =
      .ok ⟨document.positionAt start, document.positionAt stop, positionAt_mono le⟩ := by
  simp only [rangeAt, Range.between, positionAt_mono le, dite_true]

theorem locationAt_eq {document : Document} {start stop : Int} (le : start ≤ stop) :
    document.locationAt start stop = .ok ⟨document.uri,
      ⟨document.positionAt start, document.positionAt stop, positionAt_mono le⟩⟩ := by
  simp only [locationAt, rangeAt_eq le]
  rfl

/-- No position of a document stands past its end. -/
theorem positionAt_le_endPosition (document : Document) (offset : Int) :
    document.positionAt offset ≤ document.endPosition := by
  rw [← document.positionAt_clamp offset]
  refine positionAt_mono ?_
  exact_mod_cast document.clamp_le offset

theorem offsetAt_eq (document : Document) (position : Position) :
    document.offsetAt position =
      min (Text.lineStart document.text position.line + position.character)
        (Text.lineStart document.text (position.line + 1)) := by
  simp only [offsetAt, Text.lineStart]
  cases found : (Text.lineStarts document.text)[position.line]? with
  | none =>
      have next : (Text.lineStarts document.text)[position.line + 1]? = none := by
        have := List.getElem?_eq_none_iff.1 found
        exact List.getElem?_eq_none (by omega)
      simp only [next, Option.getD_none]
      omega
  | some start => simp only [List.getD_eq_getElem?_getD, Option.getD_some]

/-- Later positions have later offsets, those past the end of their line or of the document
included. -/
theorem offsetAt_mono (document : Document) {first second : Position} (le : first ≤ second) :
    document.offsetAt first ≤ document.offsetAt second := by
  rw [offsetAt_eq, offsetAt_eq]
  rcases Position.le_def.1 le with earlier | ⟨same, ordered⟩
  · have next := Text.lineStart_mono document.text (Nat.succ_le_of_lt earlier)
    have rises := Text.lineStart_mono document.text (Nat.le_succ second.line)
    simp only [Nat.succ_eq_add_one] at next rises
    omega
  · rw [same]
    omega

/-- The table of a document's lines holds the starts of its lines and nothing else. Between offsets
and positions it loses nothing and keeps the order: the position of an offset leads back to it, or
to the nearest offset of the text, and the position of a position's offset is the position itself,
where it is the position of some offset. -/
theorem offsets_match_positions (document : Document) :
    Text.IsLineTable document.text (Text.lineStarts document.text) ∧
    (∀ offset : Int, (document.offsetAt (document.positionAt offset) : Int) =
      max 0 (min offset document.text.length)) ∧
    (∀ first second : Int, first ≤ second →
      document.positionAt first ≤ document.positionAt second ∧
      ∃ range, document.rangeAt first second = .ok range ∧
        range.start = document.positionAt first ∧ range.stop = document.positionAt second) ∧
    (∀ first second : Position, first ≤ second →
      document.offsetAt first ≤ document.offsetAt second) ∧
    (∀ position : Position, (∃ offset : Int, document.positionAt offset = position) →
      document.positionAt (document.offsetAt position) = position) := by
  refine ⟨Text.lineStarts_isLineTable document.text, fun offset => ?_, fun first second le => ?_,
    fun first second le => document.offsetAt_mono le, ?_⟩
  · rw [offsetAt_positionAt, clamp_eq]
  · exact ⟨positionAt_mono le, _, rangeAt_eq le, rfl, rfl⟩
  · rintro position ⟨offset, rfl⟩
    rw [offsetAt_positionAt, positionAt_clamp]

/-- A line that ends in a pair, one that ends in a carriage return and one that ends in a line feed,
with an empty line after it. -/
def unevenBreaks : Document := ⟨"", "a\r\nb\rc\n".toList, 0⟩

theorem unevenBreaks_positions :
    Text.lineStarts unevenBreaks.text = [0, 3, 5, 7] ∧
    unevenBreaks.positionAt (-4) ≤ unevenBreaks.positionAt 2 ∧
    (∃ range, unevenBreaks.rangeAt 2 40 = .ok range ∧
      range.start = ⟨0, 2⟩ ∧ range.stop = ⟨3, 0⟩) ∧
    unevenBreaks.offsetAt ⟨1, 9⟩ ≤ unevenBreaks.offsetAt ⟨2, 0⟩ ∧
    unevenBreaks.positionAt (unevenBreaks.offsetAt ⟨0, 2⟩) = ⟨0, 2⟩ := by
  obtain ⟨-, -, ordered, offsets, back⟩ := unevenBreaks.offsets_match_positions
  exact ⟨by decide, (ordered _ _ (by decide)).1, (ordered 2 40 (by decide)).2,
    offsets _ _ (by decide), back _ ⟨2, by decide⟩⟩

end Document

end ChoiceScript
