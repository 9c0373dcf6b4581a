import ChoiceScript.Text.Lowercase

/-! # Small letters stay

The table of capital letters leads to no capital letter, so a text in small letters is the same in small
letters. An ASCII character becomes one ASCII character; any other becomes characters beyond ASCII or
one of the two letters that a letter beyond ASCII leads to.
-/

namespace ChoiceScript.Text

namespace CaseRun

/-- The least code point of the small letters of a run. -/
def smallFirst (run : CaseRun) : Nat := (run.first + run.distance).toNat

def smallLast (run : CaseRun) : Nat := (run.last + run.distance).toNat

/-- Do the small letters of a run all stand outside some code points? -/
def avoids (run : CaseRun) (first last : Nat) : Bool :=
  run.smallLast.blt first || last.blt run.smallFirst

/-- Is no small letter of a run a capital letter of another, be it that every second one in between
is? -/
def misses (run other : CaseRun) : Bool :=
  run.avoids other.first other.last ||
    other.step.beq 2 && (run.step.beq 2 || run.first.beq run.last) &&
      ((run.smallFirst + other.first) % 2).beq 1

/-- Are the small letters of a run characters that stay, beyond ASCII or a `k`? -/
def isSettled (run : CaseRun) : Bool :=
  (Nat.blt 0x7F run.smallFirst || run.smallFirst.beq 107 && run.smallLast.beq 107) &&
    (run.smallLast.blt 0xD800 || Nat.blt 0xDFFF run.smallFirst && run.smallLast.blt 0x110000) &&
    run.avoids 0x130 0x130 && caseRuns.all run.misses

theorem isSettled_of_mem : ∀ run ∈ caseRuns, run.isSettled = true :=
  List.all_eq_true.1 (by decide +kernel)

variable {run other : CaseRun} {code first last : Nat}

/-- The small letter of a capital letter of a run. -/
theorem small_of_holds (member : run ∈ caseRuns) (holds : run.holds code = true) :
    (code + run.distance).toNat = run.smallFirst + (code - run.first) ∧
      run.smallFirst + (code - run.first) ≤ run.smallLast ∧ 0 < run.smallFirst := by
  have settled := isSettled_of_mem run member
  simp only [isSettled, Bool.and_eq_true, Bool.or_eq_true, Nat.blt_eq, Nat.beq_eq] at settled
  simp only [CaseRun.holds, Bool.and_eq_true, decide_eq_true_eq] at holds
  have positive : 0 < run.smallFirst := by omega
  unfold smallFirst smallLast at *
  omega

theorem not_holds_of_misses (member : run ∈ caseRuns) (holds : run.holds code = true)
    (misses : run.misses other = true) : other.holds (code + run.distance).toNat = false := by
  obtain ⟨small, last, -⟩ := small_of_holds member holds
  rw [small]
  simp only [CaseRun.holds, Bool.and_eq_true, decide_eq_true_eq] at holds
  simp only [CaseRun.misses, avoids, Bool.or_eq_true, Bool.and_eq_true, Nat.blt_eq, Nat.beq_eq] at misses
  rw [← Bool.not_eq_true]
  simp only [CaseRun.holds, Bool.and_eq_true, decide_eq_true_eq]
  rintro ⟨⟨front, back⟩, even⟩
  rcases misses with (before | behind) | ⟨⟨two, steps | one⟩, odd⟩
  · omega
  · omega
  · rw [two] at even
    rw [steps] at holds
    omega
  · rw [two] at even
    omega

/-- A small letter of the table is beyond ASCII, or it is a `k`. -/
theorem beyond_of_holds {d : Char} (member : run ∈ caseRuns) (holds : run.holds code = true)
    (small : d.toNat = (code + run.distance).toNat) : 0x80 ≤ d.toNat ∨ d = 'k' := by
  obtain ⟨same, last, -⟩ := small_of_holds member holds
  have settled := isSettled_of_mem run member
  simp only [isSettled, Bool.and_eq_true, Bool.or_eq_true, Nat.blt_eq, Nat.beq_eq] at settled
  obtain ⟨⟨⟨high | ⟨first, ends⟩, -⟩, -⟩, -⟩ := settled
  · exact .inl (by omega)
  · have letter : 'k'.toNat = 107 := rfl
    exact .inr (Char.toNat_inj.1 (by omega))

end CaseRun

/-- A character that small letters leave as it is. -/
def IsSmall (c : Char) : Prop := lowerChar c = [c] ∧ c ≠ 'Σ'

/-- A character beyond ASCII, or one that such a character leads to. -/
def IsBeyond (c : Char) : Prop := 0x80 ≤ c.toNat ∨ c = 'i' ∨ c = 'k'

theorem isSmall_of_not_held {c : Char} (beyond : 0x80 ≤ c.toNat) (other : c.toNat ≠ 0x130)
    (free : ∀ run ∈ caseRuns, run.holds c.toNat = false) : IsSmall c := by
  constructor
  · have none : caseRuns.find? (·.holds c.toNat) = none := by
      rw [List.find?_eq_none]
      exact fun run member => by simp [free run member]
    rw [lowerChar, if_neg (by omega), if_neg other, none]
  · rintro rfl
    have held : ∃ run ∈ caseRuns, run.holds 'Σ'.toNat = true :=
      List.any_eq_true.1 (by decide +kernel)
    obtain ⟨run, member, holds⟩ := held
    rw [free run member] at holds
    cases holds

theorem isSmall_toLower {c : Char} (ascii : c.toNat < 0x80) :
    IsSmall c.toLower ∧ c.toLower.toNat < 0x80 := by
  refine of_code (fun d => IsSmall d.toLower ∧ d.toLower.toNat < 0x80) ?_ ascii
  have small : ∀ code < 128, lowerChar (Char.ofNat code).toLower = [(Char.ofNat code).toLower] ∧
      (Char.ofNat code).toLower ≠ 'Σ' ∧ (Char.ofNat code).toLower.toNat < 0x80 := by
    decide +kernel
  exact fun code low => ⟨⟨(small code low).1, (small code low).2.1⟩, (small code low).2.2⟩

/-- What a character beyond ASCII becomes: itself, the two characters of the dotted capital I, or a small
letter of the table. -/
theorem of_mem_lowerChar {c d : Char} (beyond : 0x80 ≤ c.toNat) (member : d ∈ lowerChar c) :
    (d = c ∧ IsSmall c) ∨ d = 'i' ∨ d = Char.ofNat 0x307 ∨
      ∃ run ∈ caseRuns, run.holds c.toNat = true ∧ d.toNat = (c.toNat + run.distance).toNat := by
  unfold lowerChar at member
  rw [if_neg (by omega)] at member
  split at member
  · simp only [List.mem_cons, List.not_mem_nil, or_false] at member
    exact .inr (member.imp_right .inl)
  rename_i other
  split at member
  · rename_i run found
    have listed := List.mem_of_find?_eq_some found
    have holds := List.find?_some found
    refine .inr (.inr (.inr ⟨run, listed, holds, ?_⟩))
    obtain rfl := List.mem_singleton.1 member
    obtain ⟨small, last, -⟩ := CaseRun.small_of_holds listed holds
    have settled := CaseRun.isSettled_of_mem run listed
    simp only [CaseRun.isSettled, Bool.and_eq_true, Bool.or_eq_true, Nat.blt_eq] at settled
    generalize (c.toNat + run.distance).toNat = code at small
    have valid : code.isValidChar := by
      unfold Nat.isValidChar
      omega
    have same : Char.ofNat code = Char.ofNatAux code valid := dif_pos valid
    rw [same]
    rfl
  · rename_i none
    refine .inl ⟨List.mem_singleton.1 member, isSmall_of_not_held beyond other fun run listed => ?_⟩
    simpa using List.find?_eq_none.1 none run listed

theorem isSmall_of_mem_lowerChar {c d : Char} (member : d ∈ lowerChar c) : IsSmall d := by
  by_cases ascii : c.toNat < 0x80
  · rw [lowerChar, if_pos ascii, List.mem_singleton] at member
    rw [member]
    exact (isSmall_toLower ascii).1
  have letters : IsSmall 'i' ∧ IsSmall (Char.ofNat 0x307) := by
    refine ⟨⟨by decide +kernel, by decide⟩, by decide +kernel, by decide⟩
  rcases of_mem_lowerChar (by omega) member with ⟨rfl, small⟩ | rfl | rfl | ⟨run, listed, holds, code⟩
  · exact small
  · exact letters.1
  · exact letters.2
  · obtain ⟨small, last, -⟩ := CaseRun.small_of_holds listed holds
    have settled := CaseRun.isSettled_of_mem run listed
    simp only [CaseRun.isSettled, CaseRun.avoids, Bool.and_eq_true, Bool.or_eq_true, Nat.blt_eq,
      List.all_eq_true] at settled
    obtain ⟨⟨-, dotted⟩, misses⟩ := settled
    rcases CaseRun.beyond_of_holds listed holds code with high | rfl
    · refine isSmall_of_not_held high (by omega) fun other member => ?_
      rw [code]
      exact CaseRun.not_holds_of_misses listed holds (misses other member)
    · exact ⟨by decide +kernel, by decide⟩

theorem isBeyond_of_mem_lowerChar {c d : Char} (beyond : 0x80 ≤ c.toNat) (member : d ∈ lowerChar c) :
    IsBeyond d := by
  rcases of_mem_lowerChar beyond member with ⟨rfl, -⟩ | rfl | rfl | ⟨run, listed, holds, code⟩
  · exact .inl beyond
  · exact .inr (.inl rfl)
  · exact .inl (by decide)
  · exact (CaseRun.beyond_of_holds listed holds code).imp_right .inr

theorem lowerChar_ne_nil (c : Char) : lowerChar c ≠ [] := by
  unfold lowerChar
  split
  · simp
  split
  · simp
  split <;> simp

/-- A text becomes small letter by letter, but a sigma looks at what stands around it. -/
theorem lowerAfter_cons (before : Text) (c : Char) (rest : Text) :
    lowerAfter before (c :: rest) = lowerChar c ++ lowerAfter (c :: before) rest ∨
      c = 'Σ' ∧ lowerAfter before (c :: rest) = 'ς' :: lowerAfter (c :: before) rest := by
  rw [lowerAfter]
  split
  · rename_i sigma
    simp only [Bool.and_eq_true, decide_eq_true_eq] at sigma
    exact .inr ⟨sigma.1.1, rfl⟩
  · exact .inl rfl

theorem isSmall_of_mem_lower {text : Text} : ∀ d ∈ lower text, IsSmall d := by
  suffices ∀ before, ∀ d ∈ lowerAfter before text, IsSmall d from this []
  induction text with
  | nil => simp [lowerAfter]
  | cons c rest ih =>
      intro before d member
      rcases lowerAfter_cons before c rest with plain | ⟨-, sigma⟩
      · rw [plain] at member
        rcases List.mem_append.1 member with here | later
        · exact isSmall_of_mem_lowerChar here
        · exact ih _ d later
      · rw [sigma] at member
        rcases List.mem_cons.1 member with rfl | later
        · exact ⟨by decide +kernel, by decide⟩
        · exact ih _ d later

theorem lower_eq_self {text : Text} (small : ∀ c ∈ text, IsSmall c) : lower text = text := by
  suffices ∀ before, lowerAfter before text = text from this []
  induction text with
  | nil => exact fun _ => rfl
  | cons c rest ih =>
      intro before
      obtain ⟨stays, other⟩ := small c List.mem_cons_self
      have later := ih (fun d member => small d (List.mem_cons_of_mem _ member)) (c :: before)
      rcases lowerAfter_cons before c rest with plain | ⟨sigma, -⟩
      · rw [plain, stays, later]
        rfl
      · exact absurd sigma other

/-- A text in small letters is the same in small letters. -/
theorem lower_lower (text : Text) : lower (lower text) = lower text := lower_eq_self isSmall_of_mem_lower

/-- A text and the same text in small letters, one piece for each character. -/
inductive Lowers : Text → Text → Prop
  | nil : Lowers [] []
  | ascii {c : Char} {text small : Text} (low : c.toNat < 0x80) (rest : Lowers text small) :
      Lowers (c :: text) (c.toLower :: small)
  | beyond {c : Char} {piece text small : Text} (high : 0x80 ≤ c.toNat) (some : piece ≠ [])
      (beyond : ∀ d ∈ piece, IsBeyond d) (rest : Lowers text small) :
      Lowers (c :: text) (piece ++ small)

theorem lowers_lower (text : Text) : Lowers text (lower text) := by
  suffices ∀ before, Lowers text (lowerAfter before text) from this []
  induction text with
  | nil => exact fun _ => .nil
  | cons c rest ih =>
      intro before
      rcases lowerAfter_cons before c rest with plain | ⟨rfl, sigma⟩
      · rw [plain]
        by_cases ascii : c.toNat < 0x80
        · rw [lowerChar, if_pos ascii]
          exact .ascii ascii (ih _)
        · have high : 0x80 ≤ c.toNat := by omega
          exact .beyond high (lowerChar_ne_nil c) (fun d => isBeyond_of_mem_lowerChar high) (ih _)
      · rw [sigma]
        have beyond : ∀ d ∈ ['ς'], IsBeyond d := by
          intro d member
          rw [List.mem_singleton.1 member]
          exact .inl (by decide)
        exact .beyond (by decide) (by simp) beyond (ih _)

theorem lower_eq_nil_iff {text : Text} : lower text = [] ↔ text = [] := by
  constructor
  · intro none
    have lowers := lowers_lower text
    rw [none] at lowers
    generalize empty : ([] : Text) = small at lowers
    cases lowers with
    | nil => rfl
    | ascii => cases empty
    | beyond _ some => exact absurd (List.append_eq_nil_iff.1 empty.symm).1 some
  · rintro rfl
    rfl

end ChoiceScript.Text
