import ChoiceScript.Proofs.Text.Lowercase
import ChoiceScript.Proofs.Uri.NormalPath

/-! # Authorities in small letters

The marks of an authority and the digits of its hosts look at no case, and small letters bring in none of
them. So an authority that is accepted is accepted in small letters too.
-/

namespace ChoiceScript

namespace Text

/-- A test that looks at no case, and tells no character that comes from beyond ASCII from another. -/
structure Caseless (test : Char → Bool) : Prop where
  ascii : ∀ c : Char, c.toNat < 0x80 → test c.toLower = test c
  beyond : ∀ c : Char, IsBeyond c → test c = test 'i'

section Caseless

variable {test : Char → Bool} {text small piece other otherSmall : Text}

theorem Lowers.append (lowers : Lowers text small) (others : Lowers other otherSmall) :
    Lowers (text ++ other) (small ++ otherSmall) := by
  induction lowers with
  | nil => exact others
  | ascii low rest ih => exact .ascii low ih
  | beyond high some beyond rest ih =>
      rw [List.append_assoc]
      exact .beyond high some beyond ih

theorem Lowers.reverse (lowers : Lowers text small) : Lowers text.reverse small.reverse := by
  induction lowers with
  | nil => exact .nil
  | ascii low rest ih =>
      rw [List.reverse_cons, List.reverse_cons]
      exact ih.append (.ascii low .nil)
  | @beyond c piece text small high some beyond rest ih =>
      rw [List.reverse_cons, List.reverse_append]
      have last : Lowers [c] (piece.reverse ++ []) :=
        .beyond high (by simpa using some) (fun d member => beyond d (List.mem_reverse.1 member)) .nil
      rw [List.append_nil] at last
      exact ih.append last

theorem Lowers.eq_nil_iff (lowers : Lowers text small) : small = [] ↔ text = [] := by
  cases lowers with
  | nil => simp
  | ascii => simp
  | beyond _ some => simp [some]

/-- A piece from beyond ASCII passes a test as the character does that it comes from. -/
theorem Caseless.all_piece (caseless : Caseless test) (some : piece ≠ [])
    (beyond : ∀ d ∈ piece, IsBeyond d) : piece.all test = test 'i' := by
  cases known : test 'i' with
  | true => exact List.all_eq_true.2 fun d member => (caseless.beyond d (beyond d member)).trans known
  | false =>
      obtain ⟨d, rest, rfl⟩ := List.exists_cons_of_ne_nil some
      simp [(caseless.beyond d (beyond d List.mem_cons_self)).trans known]

theorem Lowers.all (lowers : Lowers text small) (caseless : Caseless test) :
    small.all test = text.all test := by
  induction lowers with
  | nil => rfl
  | @ascii c text small low rest ih => rw [List.all_cons, List.all_cons, ih, caseless.ascii c low]
  | @beyond c piece text small high some beyond rest ih =>
      rw [List.all_append, List.all_cons, ih, caseless.all_piece some beyond,
        caseless.beyond c (.inl high)]

/-- A text and its small letters are cut in one place by a test that tells no case. -/
theorem Lowers.cut (lowers : Lowers text small) (caseless : Caseless test) :
    Lowers (text.takeWhile test) (small.takeWhile test) ∧
      Lowers (text.dropWhile test) (small.dropWhile test) := by
  induction lowers with
  | nil => exact ⟨.nil, .nil⟩
  | @ascii c text small low rest ih =>
      simp only [List.takeWhile_cons, List.dropWhile_cons, caseless.ascii c low]
      cases test c with
      | true => exact ⟨.ascii low ih.1, ih.2⟩
      | false => exact ⟨.nil, .ascii low rest⟩
  | @beyond c piece text small high some beyond rest ih =>
      have all := caseless.all_piece some beyond
      simp only [List.takeWhile_cons, List.dropWhile_cons, caseless.beyond c (.inl high)]
      cases known : test 'i' with
      | true =>
          rw [known] at all
          rw [List.takeWhile_append_of_pos (List.all_eq_true.1 all),
            List.dropWhile_append_of_pos (List.all_eq_true.1 all)]
          exact ⟨.beyond high some beyond ih.1, ih.2⟩
      | false =>
          have whole := Lowers.beyond high some beyond rest
          obtain ⟨d, others, rfl⟩ := List.exists_cons_of_ne_nil some
          have fails := (caseless.beyond d (beyond d List.mem_cons_self)).trans known
          simp only [List.cons_append, List.takeWhile_cons, List.dropWhile_cons, fails]
          exact ⟨.nil, whole⟩

theorem Lowers.takeWhile (lowers : Lowers text small) (caseless : Caseless test) :
    Lowers (text.takeWhile test) (small.takeWhile test) :=
  (lowers.cut caseless).1

theorem Lowers.dropWhile (lowers : Lowers text small) (caseless : Caseless test) :
    Lowers (text.dropWhile test) (small.dropWhile test) :=
  (lowers.cut caseless).2

/-- Text of ASCII characters keeps its length. -/
theorem Lowers.length_eq (lowers : Lowers text small) (caseless : Caseless test)
    (other : test 'i' = false) (all : text.all test = true) : small.length = text.length := by
  induction lowers with
  | nil => rfl
  | ascii low rest ih =>
      rw [List.all_cons, Bool.and_eq_true] at all
      rw [List.length_cons, List.length_cons, ih all.2]
  | @beyond c piece text small high some beyond rest ih =>
      rw [List.all_cons, Bool.and_eq_true, caseless.beyond c (.inl high), other] at all
      cases all.1

end Caseless

/-- The marks of an authority. -/
def hostMarks : Text := ['[', ']', ':', '@', '%', '.']

theorem of_mem_hostMarks {mark : Char} (isMark : mark ∈ hostMarks) :
    mark.toLower = mark ∧ mark.toNat < 0x80 ∧ ¬ IsBeyond mark := by
  simp only [hostMarks, List.mem_cons, List.not_mem_nil, or_false] at isMark
  unfold IsBeyond
  rcases isMark with rfl | rfl | rfl | rfl | rfl | rfl <;> decide

theorem caseless_ne {mark : Char} (isMark : mark ∈ hostMarks) : Caseless (· ≠ mark) := by
  have codes : ∀ code < 128,
      decide ((Char.ofNat code).toLower ≠ mark) = decide (Char.ofNat code ≠ mark) := by
    simp only [hostMarks, List.mem_cons, List.not_mem_nil, or_false] at isMark
    rcases isMark with rfl | rfl | rfl | rfl | rfl | rfl <;> decide +kernel
  obtain ⟨-, -, low⟩ := of_mem_hostMarks isMark
  constructor
  · exact fun c ascii => of_code (fun d => decide (d.toLower ≠ mark) = decide (d ≠ mark)) codes ascii
  · intro c beyond
    have other : c ≠ mark := fun same => low (same ▸ beyond)
    have letter : 'i' ≠ mark := fun same => low (.inr (.inl same.symm))
    simp [other, letter]

section Mark

variable {mark : Char} {text small : Text}

theorem Lowers.contains_eq (lowers : Lowers text small) (isMark : mark ∈ hostMarks) :
    small.contains mark = text.contains mark := by
  have held (text : Text) : text.contains mark = !text.all (· ≠ mark) := by
    rw [Bool.eq_iff_iff]
    simp
  rw [held, held, lowers.all (caseless_ne isMark)]

/-- A mark at the start stays there. -/
theorem Lowers.cons_mark (lowers : Lowers (mark :: text) small) (isMark : mark ∈ hostMarks) :
    ∃ rest, small = mark :: rest ∧ Lowers text rest := by
  obtain ⟨stays, ascii, -⟩ := of_mem_hostMarks isMark
  cases lowers with
  | ascii _ rest => exact ⟨_, by rw [stays], rest⟩
  | beyond high => omega

/-- Behind the first of a kind of mark stand the small letters of what stands behind it in the text. -/
theorem Lowers.behind_mark (lowers : Lowers text small) (isMark : mark ∈ hostMarks) :
    Lowers (text.dropWhile (· ≠ mark)).tail (small.dropWhile (· ≠ mark)).tail := by
  have rest := lowers.dropWhile (caseless_ne isMark)
  cases behind : text.dropWhile (· ≠ mark) with
  | nil =>
      rw [behind] at rest
      rw [rest.eq_nil_iff.2 rfl]
      exact .nil
  | cons c more =>
      have stops := List.head?_dropWhile_not (· ≠ mark) text
      rw [behind] at stops rest
      obtain rfl : c = mark := by simpa using stops
      obtain ⟨moreSmall, same, later⟩ := rest.cons_mark isMark
      rw [same]
      exact later

theorem Lowers.head?_eq_mark_iff (lowers : Lowers text small) (isMark : mark ∈ hostMarks) :
    small.head? = some mark ↔ text.head? = some mark := by
  have apart := caseless_ne isMark
  cases lowers with
  | nil => rfl
  | @ascii c text small low rest =>
      have same := apart.ascii c low
      simpa [not_iff_not] using same
  | @beyond c piece text small high some beyond rest =>
      obtain ⟨d, others, rfl⟩ := List.exists_cons_of_ne_nil some
      have same := (apart.beyond c (.inl high)).trans (apart.beyond d (beyond d List.mem_cons_self)).symm
      simp only [decide_eq_decide] at same
      simp only [List.cons_append, List.head?_cons, Option.some.injEq]
      exact not_iff_not.1 same.symm

theorem splitOn_append_left {piece : Text} (absent : mark ∉ piece) {first : Text} {others : List Text}
    (split : splitOn mark text = first :: others) :
    splitOn mark (piece ++ text) = (piece ++ first) :: others := by
  induction piece with
  | nil => exact split
  | cons c piece ih =>
      have apart : c ≠ mark := by
        rintro rfl
        exact absent List.mem_cons_self
      rw [List.cons_append, splitOn, if_neg apart, ih fun member => absent (List.mem_cons_of_mem _ member)]
      rfl

theorem not_mem_of_isBeyond {piece : Text} (isMark : mark ∈ hostMarks) (beyond : ∀ d ∈ piece, IsBeyond d) :
    mark ∉ piece :=
  fun member => (of_mem_hostMarks isMark).2.2 (beyond mark member)

/-- A text and the same text in small letters are cut at the same marks. -/
theorem Lowers.splitOn (lowers : Lowers text small) (isMark : mark ∈ hostMarks) :
    List.Forall₂ Lowers (splitOn mark text) (splitOn mark small) := by
  induction lowers with
  | nil => exact .cons .nil .nil
  | @ascii c text small low rest ih =>
      have same := (caseless_ne isMark).ascii c low
      simp only [decide_eq_decide, not_iff_not] at same
      by_cases here : c = mark
      · rw [Text.splitOn, Text.splitOn, if_pos here, if_pos (same.2 here)]
        exact .cons .nil ih
      · obtain ⟨first, others, split⟩ := List.exists_cons_of_ne_nil (splitOn_ne_nil mark text)
        obtain ⟨firstSmall, othersSmall, splitSmall⟩ :=
          List.exists_cons_of_ne_nil (splitOn_ne_nil mark small)
        rw [split, splitSmall] at ih
        cases ih with
        | cons head tail =>
            rw [Text.splitOn, Text.splitOn, if_neg here, if_neg fun there => here (same.1 there), split,
              splitSmall]
            exact .cons (.ascii low head) tail
  | @beyond c piece text small high some beyond rest ih =>
      obtain ⟨first, others, split⟩ := List.exists_cons_of_ne_nil (splitOn_ne_nil mark text)
      obtain ⟨firstSmall, othersSmall, splitSmall⟩ :=
        List.exists_cons_of_ne_nil (splitOn_ne_nil mark small)
      rw [split, splitSmall] at ih
      cases ih with
      | cons head tail =>
          have other : mark ∉ [c] := not_mem_of_isBeyond isMark (by simpa [IsBeyond] using .inl high)
          rw [splitOn_append_left (not_mem_of_isBeyond isMark beyond) splitSmall,
            show c :: text = [c] ++ text from rfl, splitOn_append_left other split]
          exact .cons (.beyond high some beyond head) tail

end Mark

end Text

namespace Uri

open Text

variable {text small host : Text}

theorem caseless_isHexDigit : Caseless isHexDigit := by
  have high {c : Char} (digit : isHexDigit c = true) : c.toNat < 103 := by
    unfold isHexDigit Percent.hexValue? at digit
    split at digit
    · rename_i range
      exact Nat.lt_of_le_of_lt range.2 (by decide)
    split at digit
    · rename_i range
      exact Nat.lt_of_le_of_lt range.2 (by decide)
    split at digit
    · rename_i range
      exact Nat.lt_of_le_of_lt range.2 (by decide)
    · cases digit
  constructor
  · exact fun c ascii => of_code (fun d => isHexDigit d.toLower = isHexDigit d) (by decide +kernel) ascii
  · intro c beyond
    rw [show isHexDigit 'i' = false by decide, ← Bool.not_eq_true]
    intro digit
    have low := high digit
    rcases beyond with beyond | rfl | rfl
    · omega
    · exact absurd digit (by decide)
    · exact absurd digit (by decide)

theorem caseless_isDigit : Caseless Char.isDigit := by
  have high {c : Char} (digit : c.isDigit = true) : c.toNat < 58 :=
    Nat.lt_of_le_of_lt (of_decide_eq_true (Bool.and_eq_true_iff.1 digit).2) (by decide)
  constructor
  · exact fun c ascii => of_code (fun d => d.toLower.isDigit = d.isDigit) (by decide +kernel) ascii
  · intro c beyond
    rw [show 'i'.isDigit = false by decide, ← Bool.not_eq_true]
    intro digit
    have low := high digit
    rcases beyond with beyond | rfl | rfl
    · omega
    · exact absurd digit (by decide)
    · exact absurd digit (by decide)

/-- Digits are the same in small letters. -/
theorem eq_of_digits (lowers : Lowers text small) (digits : text.all Char.isDigit = true) :
    small = text := by
  induction lowers with
  | nil => rfl
  | @ascii c text small low rest ih =>
      rw [List.all_cons, Bool.and_eq_true] at digits
      have stays : c.toLower = c :=
        of_code (fun d => d.isDigit = true → d.toLower = d) (by decide +kernel) low digits.1
      rw [stays, ih digits.2]
  | @beyond c piece text small high some beyond rest ih =>
      rw [List.all_cons, Bool.and_eq_true, caseless_isDigit.beyond c (.inl high)] at digits
      cases digits.1

theorem isByteNumber_eq (lowers : Lowers text small) : isByteNumber small = isByteNumber text := by
  cases digits : text.all Char.isDigit with
  | true => rw [eq_of_digits lowers digits]
  | false =>
      have digitsSmall := (lowers.all caseless_isDigit).trans digits
      simp only [isByteNumber, digits, digitsSmall, Bool.and_false, Bool.false_and]

theorem isDottedHost_eq (lowers : Lowers text small) : isDottedHost small = isDottedHost text := by
  have lowered : List.Forall₂ Lowers (Text.splitOn '.' text) (Text.splitOn '.' small) :=
    lowers.splitOn (by decide)
  rw [isDottedHost, isDottedHost]
  generalize Text.splitOn '.' text = parts at lowered
  generalize Text.splitOn '.' small = partsSmall at lowered
  have all : partsSmall.all isByteNumber = parts.all isByteNumber := by
    induction lowered with
    | nil => rfl
    | cons head tail ih => rw [List.all_cons, List.all_cons, ih, isByteNumber_eq head]
  simp only [all, lowered.length_eq]

theorem isGroup_eq (lowers : Lowers text small) : isGroup small = isGroup text := by
  have all := lowers.all caseless_isHexDigit
  cases digits : text.all isHexDigit with
  | true =>
      have length := lowers.length_eq caseless_isHexDigit (by decide) digits
      simp only [isGroup, all, length, ne_eq, lowers.eq_nil_iff]
  | false => simp only [isGroup, all, digits, Bool.and_false]

theorem groupCount?_eq {parts partsSmall : List Text} (endsHost : Bool)
    (lowers : List.Forall₂ Lowers parts partsSmall) :
    groupCount? endsHost partsSmall = groupCount? endsHost parts := by
  induction lowers with
  | nil => rfl
  | cons head tail ih =>
      cases tail with
      | nil => simp only [groupCount?, isGroup_eq head, isDottedHost_eq head]
      | cons next others => simp only [groupCount?, isGroup_eq head, ih]

/-- A gap is cut out at the first pair of colons, else the text goes on. -/
theorem cutAtGap?_cons {c : Char} (other : ¬ (c = ':' ∧ text.head? = some ':')) :
    cutAtGap? (c :: text) = (cutAtGap? text).map fun cut => (c :: cut.1, cut.2) := by
  rw [cutAtGap?.eq_def]
  split
  · rename_i rest same
    obtain ⟨rfl, rfl⟩ := List.cons.inj same
    exact absurd ⟨rfl, rfl⟩ other
  · rename_i same
    obtain ⟨rfl, rfl⟩ := List.cons.inj same
    rfl
  · rename_i same
    cases same

theorem cutAtGap?_append {piece : Text} (absent : ':' ∉ piece) :
    cutAtGap? (piece ++ text) = (cutAtGap? text).map fun cut => (piece ++ cut.1, cut.2) := by
  induction piece with
  | nil => simp
  | cons c piece ih =>
      have apart : ¬ (c = ':' ∧ (piece ++ text).head? = some ':') := by
        rintro ⟨rfl, -⟩
        exact absent List.mem_cons_self
      rw [List.cons_append, cutAtGap?_cons apart, ih fun member => absent (List.mem_cons_of_mem _ member)]
      cases cutAtGap? text <;> rfl

/-- The parts before and after the gap, in small letters, or no gap. -/
inductive LowersCut : Option (Text × Text) → Option (Text × Text) → Prop
  | none : LowersCut none none
  | some {before beforeSmall after afterSmall : Text} (first : Lowers before beforeSmall)
      (second : Lowers after afterSmall) : LowersCut (some (before, after)) (some (beforeSmall, afterSmall))

theorem lowersCut (lowers : Lowers text small) : LowersCut (cutAtGap? text) (cutAtGap? small) := by
  have colon : ':' ∈ hostMarks := by decide
  induction lowers with
  | nil => exact .none
  | @ascii c text small low rest ih =>
      have same := (caseless_ne colon).ascii c low
      simp only [decide_eq_decide, not_iff_not] at same
      by_cases gap : c = ':' ∧ text.head? = some ':'
      · obtain ⟨rfl, head⟩ := gap
        obtain ⟨after, rfl⟩ := List.head?_eq_some_iff.1 head
        obtain ⟨afterSmall, rfl, second⟩ := rest.cons_mark colon
        exact .some .nil second
      · have gapSmall : ¬ (c.toLower = ':' ∧ small.head? = some ':') := by
          rwa [same, rest.head?_eq_mark_iff colon]
        rw [cutAtGap?_cons gap, cutAtGap?_cons gapSmall]
        generalize cutAtGap? text = cut at ih
        generalize cutAtGap? small = cutSmall at ih
        cases ih with
        | none => exact .none
        | some first second => exact .some (.ascii low first) second
  | @beyond c piece text small high some beyond rest ih =>
      have other : ':' ∉ [c] := not_mem_of_isBeyond colon (by simpa [IsBeyond] using .inl high)
      rw [show c :: text = [c] ++ text from rfl, cutAtGap?_append other,
        cutAtGap?_append (not_mem_of_isBeyond colon beyond)]
      generalize cutAtGap? text = cut at ih
      generalize cutAtGap? small = cutSmall at ih
      cases ih with
      | none => exact .none
      | some first second => exact .some (.beyond high some beyond first) second

theorem groupsBeside_lowers (lowers : Lowers text small) :
    List.Forall₂ Lowers (groupsBeside text) (groupsBeside small) := by
  rw [groupsBeside, groupsBeside]
  by_cases empty : text = []
  · rw [if_pos empty, if_pos (lowers.eq_nil_iff.2 empty)]
    exact .nil
  · rw [if_neg empty, if_neg fun none => empty (lowers.eq_nil_iff.1 none)]
    exact lowers.splitOn (by decide)

theorem isGroups_eq (lowers : Lowers text small) : isGroups small = isGroups text := by
  have whole : List.Forall₂ Lowers (Text.splitOn ':' text) (Text.splitOn ':' small) :=
    lowers.splitOn (by decide)
  have cut := lowersCut lowers
  rw [isGroups, isGroups]
  generalize cutAtGap? text = parts at cut
  generalize cutAtGap? small = partsSmall at cut
  cases cut with
  | none => simp only [groupCount?_eq true whole]
  | some first second =>
      simp only [groupCount?_eq false (groupsBeside_lowers first),
        groupCount?_eq true (groupsBeside_lowers second)]

theorem eq_of_cutAtGap? {before after : Text} (cut : cutAtGap? text = some (before, after)) :
    text = before ++ ':' :: ':' :: after := by
  fun_induction cutAtGap? text generalizing before with
  | case1 rest =>
      obtain ⟨rfl, rfl⟩ := Prod.mk.inj (Option.some.inj cut)
      rfl
  | case2 c rest other ih =>
      obtain ⟨⟨front, behind⟩, inside, same⟩ := Option.map_eq_some_iff.1 cut
      obtain ⟨rfl, rfl⟩ := Prod.mk.inj same
      rw [ih inside]
      rfl
  | case3 => cases cut

/-- The characters of the groups of a host. -/
def IsGroupChar (c : Char) : Prop := isHexDigit c = true ∨ c = '.' ∨ c = ':'

theorem isGroupChar_of_mem_isDottedHost {c : Char} (dotted : isDottedHost text = true)
    (member : c ∈ text) : IsGroupChar c := by
  rw [isDottedHost, Bool.and_eq_true, List.all_eq_true] at dotted
  rw [← joinWith_splitOn '.' text] at member
  rcases mem_joinWith member with dot | ⟨part, present, inside⟩
  · exact .inr (.inl dot)
  · have digits := dotted.2 part present
    simp only [isByteNumber, Bool.and_eq_true, List.all_eq_true] at digits
    have digit := digits.1.1.2 c inside
    have ascii : c.toNat < 128 := toNat_lt_of_isAlphanum (by simp [Char.isAlphanum, digit])
    exact .inl (of_code (fun d => d.isDigit = true → isHexDigit d = true) (by decide +kernel) ascii digit)

theorem isGroupChar_of_groupCount? {endsHost : Bool} {parts : List Text} {n : Nat}
    (counted : groupCount? endsHost parts = some n) :
    ∀ part ∈ parts, ∀ c ∈ part, IsGroupChar c := by
  have group {part : Text} (isGroup : isGroup part = true) : ∀ c ∈ part, IsGroupChar c := by
    simp only [Uri.isGroup, Bool.and_eq_true, List.all_eq_true] at isGroup
    exact fun c member => .inl (isGroup.2 c member)
  fun_induction groupCount? endsHost parts generalizing n with
  | case1 => simp
  | case2 last isGroup => simpa using group isGroup
  | case3 last other dotted =>
      rw [Bool.and_eq_true] at dotted
      simpa using fun c => isGroupChar_of_mem_isDottedHost dotted.2
  | case4 => cases counted
  | case5 first rest more isGroup ih =>
      obtain ⟨m, counted, -⟩ := Option.map_eq_some_iff.1 counted
      intro part member
      rcases List.mem_cons.1 member with rfl | later
      · exact group isGroup
      · exact ih counted part later
  | case6 => cases counted

theorem isGroupChar_of_mem_isGroups {c : Char} (groups : isGroups text = true) (member : c ∈ text) :
    IsGroupChar c := by
  have within {endsHost : Bool} {part : Text} {n : Nat}
      (counted : groupCount? endsHost (Text.splitOn ':' part) = some n) (inside : c ∈ part) :
      IsGroupChar c := by
    rw [← joinWith_splitOn ':' part] at inside
    rcases mem_joinWith inside with colon | ⟨piece, present, here⟩
    · exact .inr (.inr colon)
    · exact isGroupChar_of_groupCount? counted piece present c here
  have beside {endsHost : Bool} {part : Text} {n : Nat}
      (counted : groupCount? endsHost (groupsBeside part) = some n) (inside : c ∈ part) :
      IsGroupChar c := by
    rw [groupsBeside, if_neg (List.ne_nil_of_mem inside)] at counted
    exact within counted inside
  rw [isGroups] at groups
  split at groups
  · exact within (of_decide_eq_true groups) member
  · rename_i before after cut
    split at groups
    · rename_i m n first second
      rw [eq_of_cutAtGap? cut] at member
      simp only [List.mem_append, List.mem_cons] at member
      rcases member with here | colon | colon | there
      · exact beside first here
      · exact .inr (.inr colon)
      · exact .inr (.inr colon)
      · exact beside second there
    · cases groups

theorem isZone_of_lowers (lowers : Lowers text small) (zone : isZone text = true) :
    isZone small = true := by
  have percent : '%' ∈ hostMarks := by decide
  cases lowers with
  | nil => exact zone
  | @ascii c text small low rest =>
      simp only [isZone, Bool.and_eq_true, decide_eq_true_eq] at zone ⊢
      rwa [rest.contains_eq percent, ne_eq, rest.eq_nil_iff]
  | @beyond c piece text small high some beyond rest =>
      obtain ⟨d, others, rfl⟩ := List.exists_cons_of_ne_nil some
      simp only [isZone, Bool.and_eq_true, decide_eq_true_eq, List.cons_append] at zone ⊢
      refine ⟨fun none => zone.1 (rest.eq_nil_iff.1 (List.append_eq_nil_iff.1 none).2), ?_⟩
      have absent : '%' ∉ others :=
        not_mem_of_isBeyond percent fun e member => beyond e (List.mem_cons_of_mem _ member)
      have plain := zone.2
      rw [← rest.contains_eq percent] at plain
      simpa [absent] using plain

theorem isColonHost_of_lowers (lowers : Lowers text small) (colonHost : isColonHost text = true) :
    isColonHost small = true := by
  have apart : Caseless (· ≠ '%') := caseless_ne (by decide)
  rw [isColonHost, Bool.and_eq_true] at colonHost ⊢
  exact ⟨(isGroups_eq (lowers.takeWhile apart)).trans colonHost.1,
    isZone_of_lowers (lowers.dropWhile apart) colonHost.2⟩

theorem isFutureHost_cons_iff {rest : Text} : isFutureHost ('v' :: rest) = true ↔
    rest.takeWhile isHexDigit ≠ [] ∧ ∃ c more, rest.dropWhile isHexDigit = '.' :: c :: more := by
  have behind : rest.drop (rest.takeWhile isHexDigit).length = rest.dropWhile isHexDigit := by
    calc rest.drop (rest.takeWhile isHexDigit).length
        = (rest.takeWhile isHexDigit ++ rest.dropWhile isHexDigit).drop
            (rest.takeWhile isHexDigit).length := by rw [List.takeWhile_append_dropWhile]
      _ = rest.dropWhile isHexDigit := List.drop_left
  simp only [isFutureHost, behind]
  split
  · rename_i c more same
    simp [same]
  · rename_i other
    refine iff_of_false (by simp) ?_
    rintro ⟨-, c, more, same⟩
    exact other c more same

theorem isFutureHost_of_lowers (lowers : Lowers text small)
    (future : isFutureHost ('v' :: text) = true) : isFutureHost ('v' :: small) = true := by
  obtain ⟨version, c, more, behind⟩ := isFutureHost_cons_iff.1 future
  have digits := lowers.takeWhile caseless_isHexDigit
  have rest := lowers.dropWhile caseless_isHexDigit
  rw [behind] at rest
  obtain ⟨others, same, some⟩ := rest.cons_mark (by decide)
  obtain ⟨d, further, rfl⟩ := List.exists_cons_of_ne_nil fun none => by
    have empty := some.eq_nil_iff.1 none
    cases empty
  exact isFutureHost_cons_iff.2 ⟨fun none => version (digits.eq_nil_iff.1 none), d, further, same⟩

theorem checkBracketedHost_of_lowers (lowers : Lowers text small)
    (checked : checkBracketedHost text = .ok ()) : checkBracketedHost small = .ok () := by
  rw [checkBracketedHost] at checked
  split at checked
  · rename_i version
    obtain ⟨rest, rfl⟩ := List.head?_eq_some_iff.1 version
    split at checked
    · rename_i future
      cases lowers with
      | @ascii _ _ restSmall low lowers =>
          have letter : 'v'.toLower = 'v' := by decide
          rw [letter, checkBracketedHost, if_pos List.head?_cons,
            if_pos (isFutureHost_of_lowers lowers future)]
      | beyond high => exact absurd high (by decide)
    · cases checked
  · rename_i other
    split at checked
    · cases checked
    · rename_i noDots
      split at checked
      · rename_i colonHost
        have colonSmall := isColonHost_of_lowers lowers colonHost
        have noVersion : small.head? ≠ some 'v' := by
          intro version
          obtain ⟨rest, rfl⟩ := List.head?_eq_some_iff.1 version
          have digit : IsGroupChar 'v' := by
            rw [isColonHost, Bool.and_eq_true] at colonSmall
            refine isGroupChar_of_mem_isGroups colonSmall.1 ?_
            rw [List.takeWhile_cons_of_pos (by decide)]
            exact List.mem_cons_self
          rcases digit with digit | dot | colon
          · exact absurd digit (by decide)
          · cases dot
          · cases colon
        rw [checkBracketedHost, if_neg noVersion, isDottedHost_eq lowers, if_neg noDots, if_pos colonSmall]
      · cases checked

theorem bracketedHost_of_open {enclosed : Text} (opened : afterUser text = '[' :: enclosed) :
    bracketedHost text = match (enclosed.dropWhile (· ≠ ']')).tail with
      | [] | ':' :: _ => .ok (enclosed.takeWhile (· ≠ ']'))
      | _ => .error .misplacedBracket := by
  have behind : enclosed.drop ((enclosed.takeWhile (· ≠ ']')).length + 1) =
      (enclosed.dropWhile (· ≠ ']')).tail := by
    calc enclosed.drop ((enclosed.takeWhile (· ≠ ']')).length + 1)
        = ((enclosed.takeWhile (· ≠ ']') ++ enclosed.dropWhile (· ≠ ']')).drop
            (enclosed.takeWhile (· ≠ ']')).length).drop 1 := by
          rw [List.takeWhile_append_dropWhile, List.drop_drop]
      _ = (enclosed.dropWhile (· ≠ ']')).tail := by rw [List.drop_left, List.drop_one]
  rw [bracketedHost, opened]
  change (match enclosed.drop ((enclosed.takeWhile (· ≠ ']')).length + 1) with
    | [] | ':' :: _ => .ok (enclosed.takeWhile (· ≠ ']'))
    | _ => .error .misplacedBracket : Except Fault Text) = _
  rw [behind]

theorem bracketedHost_of_bare (bare : (afterUser text).head? ≠ some '[') :
    bracketedHost text = if (afterUser text).contains '[' then .error .misplacedBracket
      else .ok ((afterUser text).takeWhile (· ≠ ':')) := by
  rw [bracketedHost]
  split
  · rename_i enclosed opened
    exact absurd (by rw [opened]; rfl) bare
  · rfl

theorem bracketedHost_of_lowers (lowers : Lowers text small) (found : bracketedHost text = .ok host) :
    ∃ hostSmall, bracketedHost small = .ok hostSmall ∧ Lowers host hostSmall := by
  have user : Lowers (afterUser text) (afterUser small) :=
    (lowers.reverse.takeWhile (caseless_ne (by decide))).reverse
  have opening : '[' ∈ hostMarks := by decide
  have closing : Caseless (· ≠ ']') := caseless_ne (by decide)
  by_cases bare : (afterUser text).head? = some '['
  · obtain ⟨enclosed, opened⟩ := List.head?_eq_some_iff.1 bare
    rw [opened] at user
    obtain ⟨enclosedSmall, openedSmall, inside⟩ := user.cons_mark opening
    rw [bracketedHost_of_open opened] at found
    rw [bracketedHost_of_open openedSmall]
    have behind := inside.behind_mark (show ']' ∈ hostMarks by decide)
    split at found
    · rename_i none
      rw [none] at behind
      obtain rfl := Except.ok.inj found
      rw [behind.eq_nil_iff.2 rfl]
      exact ⟨_, rfl, inside.takeWhile closing⟩
    · rename_i service served
      rw [served] at behind
      obtain rfl := Except.ok.inj found
      obtain ⟨serviceSmall, same, -⟩ := behind.cons_mark (by decide)
      rw [same]
      exact ⟨_, rfl, inside.takeWhile closing⟩
    · cases found
  · have bareSmall : (afterUser small).head? ≠ some '[' := by rwa [ne_eq, user.head?_eq_mark_iff opening]
    rw [bracketedHost_of_bare bare] at found
    rw [bracketedHost_of_bare bareSmall, user.contains_eq opening]
    split at found
    · cases found
    · rename_i plain
      obtain rfl := Except.ok.inj found
      rw [if_neg plain]
      exact ⟨_, rfl, user.takeWhile (caseless_ne (by decide))⟩

theorem checkBrackets_of_lowers (lowers : Lowers text small) (checked : checkBrackets text = .ok ()) :
    checkBrackets small = .ok () := by
  rw [checkBrackets] at checked ⊢
  rw [lowers.contains_eq (by decide), lowers.contains_eq (by decide)]
  split at checked
  · cases checked
  · rename_i paired
    rw [if_neg paired]
    split at checked
    · rename_i opened
      rw [if_pos opened]
      obtain ⟨host, found, passes⟩ := Outcome.bind_eq_ok checked
      obtain ⟨hostSmall, foundSmall, lowersHost⟩ := bracketedHost_of_lowers lowers found
      rw [foundSmall]
      exact checkBracketedHost_of_lowers lowersHost passes
    · rename_i none
      rw [if_neg none]

/-- Small letters bring in no other spelling of a mark. -/
theorem mem_of_lookalike {d : Char} (lookalike : d.toNat ∈ markLookalikes)
    (member : d ∈ lower text) : d ∈ text := by
  have high : 0x2000 ≤ d.toNat := by
    have all : ∀ code ∈ markLookalikes, 0x2000 ≤ code := by decide
    exact all _ lookalike
  have apart : ∀ run ∈ caseRuns, run.avoids d.toNat d.toNat = true := by
    have all : ∀ code ∈ markLookalikes, (caseRuns.all fun run => run.avoids code code) = true := by
      decide +kernel
    exact List.all_eq_true.1 (all _ lookalike)
  have one {c : Char} (here : d ∈ lowerChar c) : d = c := by
    by_cases ascii : c.toNat < 0x80
    · rw [lowerChar, if_pos ascii, List.mem_singleton] at here
      have low := (isSmall_toLower ascii).2
      rw [← here] at low
      omega
    · rcases of_mem_lowerChar (by omega) here with ⟨same, -⟩ | rfl | rfl | ⟨run, listed, holds, code⟩
      · exact same
      · exact absurd high (by decide)
      · exact absurd high (by decide)
      · obtain ⟨small, last, -⟩ := CaseRun.small_of_holds listed holds
        have outside := apart run listed
        simp only [CaseRun.avoids, Bool.or_eq_true, Nat.blt_eq] at outside
        omega
  suffices ∀ before, d ∈ lowerAfter before text → d ∈ text from this [] member
  clear member
  induction text with
  | nil => exact fun _ member => member
  | cons c rest ih =>
      intro before member
      rcases lowerAfter_cons before c rest with plain | ⟨-, sigma⟩
      · rw [plain] at member
        rcases List.mem_append.1 member with here | later
        · exact one here ▸ List.mem_cons_self
        · exact List.mem_cons_of_mem _ (ih _ later)
      · rw [sigma] at member
        rcases List.mem_cons.1 member with rfl | later
        · exact absurd high (by decide)
        · exact List.mem_cons_of_mem _ (ih _ later)

theorem checkSpelling_lower (checked : checkSpelling text = .ok ()) :
    checkSpelling (lower text) = .ok () := by
  rw [checkSpelling] at checked ⊢
  split at checked
  · cases checked
  · rename_i plain
    rw [if_neg]
    simp only [List.any_eq_true, List.contains_iff_mem, not_exists, not_and] at plain ⊢
    exact fun d member lookalike => plain d (mem_of_lookalike lookalike member) lookalike

/-- An authority that is accepted is accepted in small letters. -/
theorem checkAuthority_lower (checked : checkAuthority text = .ok ()) :
    checkAuthority (lower text) = .ok () := by
  obtain ⟨_, brackets, spelling⟩ := Outcome.bind_eq_ok checked
  rw [checkAuthority, checkBrackets_of_lowers (lowers_lower text) brackets]
  exact checkSpelling_lower spelling

end Uri

end ChoiceScript
