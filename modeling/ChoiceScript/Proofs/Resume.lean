import ChoiceScript.Proofs.Multireplace
import ChoiceScript.Proofs.Openings

/-! # Where reading goes on

Reading goes on at or after the place where the contents of a construct start, and inside the text. So
the constructs that open in a string, in prose or in a document stand one after another, each after
the place where reading goes on after the one before.
-/

namespace ChoiceScript

namespace Text

variable {text : Text} {start : Nat}

theorem le_resumeGroup (text : Text) (opening closing : Char) (start : Nat) :
    start ≤ text.resumeGroup opening closing start := by
  unfold resumeGroup
  split <;> omega

theorem resumeGroup_le {opening closing : Char} (inside : start ≤ text.length) :
    text.resumeGroup opening closing start ≤ text.length := by
  unfold resumeGroup
  split
  · rename_i contents span
    exact length_lt_of_matchingSpan span
  · exact inside

theorem resumeGroup_eq {opening closing : Char} {contents : Text}
    (span : matchingSpan text opening closing start = some contents) :
    text.resumeGroup opening closing start = start + contents.length + 1 := by
  simp only [resumeGroup, span]

theorem resumeReference_eq {contents : Text} (span : matchingSpan text '{' '}' start = some contents)
    (solid : blank contents = false) :
    text.resumeReference start = start + contents.length + 1 := by
  simp only [resumeReference, span, solid, Bool.false_eq_true, if_false]

theorem le_resumeReference (text : Text) (start : Nat) : start ≤ text.resumeReference start := by
  unfold resumeReference
  split
  · split <;> omega
  · exact Nat.le_refl _

theorem resumeReference_le (inside : start ≤ text.length) :
    text.resumeReference start ≤ text.length := by
  unfold resumeReference
  split
  · rename_i contents span
    split
    · exact inside
    · exact length_lt_of_matchingSpan span
  · exact inside

end Text

namespace Multireplace

theorem resume_eq {text : Text} {start : Nat} {multireplace : Multireplace}
    (found : read? text start = some multireplace) (usable : multireplace.flaw? = none) :
    resume text start = multireplace.stop := by
  simp only [resume, found, usable, Option.isNone_none, if_true]

/-- Test and options are shorter than what stands from the contents to past the brace. -/
theorem parts_shorter {text : Text} {start : Nat} {multireplace : Multireplace}
    (found : read? text start = some multireplace) :
    ∀ piece ∈ multireplace.test :: multireplace.options,
      start + piece.text.length < multireplace.stop := by
  have placed := placed_of_read? found
  have order := inOrder_of_read? found
  have first := order.start_le
  have test := placed.test_stop
  intro piece member
  cases List.mem_cons.1 member with
  | inl same =>
      subst same
      simp only [Piece.stop] at test
      omega
  | inr option =>
      have later := order.test_stop piece option
      have last := (placed.options piece option).2
      simp only [Piece.stop] at later last
      omega

theorem resume_le {text : Text} {start : Nat} (inside : start ≤ text.length) :
    resume text start ≤ text.length := by
  unfold resume
  split
  · rename_i multireplace found
    split
    · exact (placed_of_read? found).stop_le
    · exact inside
  · exact inside

end Multireplace

/-- A mark stands inside the text. -/
theorem StringMark.lt_of_seek {escaped : Bool} {text : Text} {skipped : Nat} {mark : StringMark}
    (found : seek escaped text = some (skipped, mark)) : skipped < text.length := by
  induction text generalizing skipped escaped with
  | nil => simp [seek] at found
  | cons c rest ih =>
      simp only [seek, List.length_cons] at found ⊢
      split at found
      · cases found
        omega
      split at found
      · cases found
        omega
      · obtain ⟨⟨before, mark⟩, later, same⟩ := Option.map_eq_some_iff.1 found
        obtain ⟨rfl, rfl⟩ := Prod.mk.inj same
        have := ih later
        omega

namespace Opening

variable {text : Text} {start stop : Nat} {opening : Opening}

theorem resume_le (inside : opening.contents ≤ text.length) : opening.resume text ≤ text.length := by
  unfold resume
  split
  · exact Text.resumeReference_le inside
  · exact Multireplace.resume_le inside

theorem start_le_resume (text : Text) (opening : Opening) : opening.start ≤ opening.resume text :=
  Nat.le_trans (Nat.le_add_right _ _) (contents_le_resume text opening)

theorem resume_of_replacement (text : Text) (kind : opening.opener.kind = .replacement) :
    opening.resume text = text.resumeReference opening.contents := by
  simp only [resume, kind]

theorem resume_of_multireplace (text : Text) (kind : opening.opener.kind = .multireplace) :
    opening.resume text = Multireplace.resume text opening.contents := by
  simp only [resume, kind]

/-- Constructs that open one after another, from an offset on. -/
structure InOrder (text : Text) (start : Nat) (openings : List Opening) : Prop where
  after : ∀ opening ∈ openings, start ≤ opening.start
  apart : openings.Pairwise fun a b => a.resume text ≤ b.start

theorem InOrder.cons {openings : List Opening} (after : start ≤ opening.start)
    (later : InOrder text (opening.resume text) openings) : InOrder text start (opening :: openings) := by
  constructor
  · intro other member
    rcases List.mem_cons.1 member with rfl | further
    · exact after
    · have := later.after other further
      have := start_le_resume text opening
      omega
  · exact .cons later.after later.apart

theorem between_inOrder (text : Text) (start stop : Nat) :
    InOrder text start (between text start stop) := by
  fun_induction between text start stop with
  | case1 => exact ⟨by simp, .nil⟩
  | case2 start skipped opener found opening ih => exact ih.cons (Nat.le_add_right _ _)

theorem inString_inOrder (text : Text) (start : Nat) :
    InOrder text start (inString text start).1 := by
  fun_induction inString text start with
  | case1 => exact ⟨by simp, .nil⟩
  | case2 => exact ⟨by simp, .nil⟩
  | case3 start skipped opener found opening openings stop rest ih =>
      rw [rest] at ih
      exact ih.cons (Nat.le_add_right _ _)

/-- A string stops after all that opens in it, and inside the text. -/
theorem inString_stop {text : Text} {start : Nat} (inside : start ≤ text.length) :
    start ≤ (inString text start).2 ∧ (inString text start).2 ≤ text.length ∧
      ∀ opening ∈ (inString text start).1, opening.resume text ≤ (inString text start).2 := by
  fun_induction inString text start with
  | case1 => simpa using inside
  | case2 start skipped found =>
      have fits := StringMark.lt_of_seek found
      rw [List.length_drop] at fits
      simp only [List.not_mem_nil, false_implies, implies_true, and_true]
      omega
  | case3 start skipped opener found opening openings stop rest ih =>
      have fits := seek_bound found
      rw [List.length_drop] at fits
      have positive := StringMark.length_pos_of_seek found
      have contents : opening.contents ≤ text.length := by
        simp only [Opening.contents, opening]
        omega
      have further := start_le_resume text opening
      obtain ⟨after, within, later⟩ := ih (resume_le contents)
      simp only [rest] at after within later
      refine ⟨?_, within, ?_⟩
      · simp only [opening] at further after
        omega
      · exact List.forall_mem_cons.2 ⟨after, later⟩

end Opening

namespace Opener

theorem found_of_seek {α : Type} {found : Text → Option α} {text : Text} {skipped : Nat} {hit : α}
    (sought : seek found text = some (skipped, hit)) : found (text.drop skipped) = some hit := by
  induction text generalizing skipped with
  | nil => simp [seek] at sought
  | cons c rest ih =>
      unfold seek at sought
      split at sought
      · rename_i here
        cases sought
        exact here
      · obtain ⟨⟨before, other⟩, later, same⟩ := Option.map_eq_some_iff.1 sought
        obtain ⟨rfl, rfl⟩ := Prod.mk.inj same
        exact ih later

/-- What a multireplace opens with. -/
theorem exists_prefix_of_multireplace {text : Text} {opener : Opener} (found : at? text = some opener)
    (kind : opener.kind = .multireplace) :
    ∃ head, (head = ['@', '{'] ∨ head = ['@', '!', '{'] ∨ head = ['@', '!', '!', '{']) ∧
      head <+: text := by
  unfold at? bangsToBrace? at found
  split at found <;> simp only [Option.map_eq_some_iff, reduceCtorEq] at found
  · obtain ⟨length, -, rfl⟩ := found
    cases kind
  · obtain ⟨length, bangs, rfl⟩ := found
    split at bangs <;> simp_all

/-- What is no space is there before spaces are written. -/
theorem prefix_of_blankMultireplaces {text head : Text} (noSpace : ' ' ∉ head)
    (isPrefix : head <+: blankMultireplaces text) : head <+: text := by
  rw [List.prefix_iff_getElem?] at isPrefix ⊢
  intro i inside
  rcases space_or_same_of_blankMultireplaces (isPrefix i inside) with space | same
  · exact absurd (space ▸ List.getElem_mem inside) noSpace
  · exact same

/-- No multireplace opens where spaces are written over their openers. -/
theorem replacement_of_blankMultireplaces {text : Text} {place : Nat} {opener : Opener}
    (found : at? ((blankMultireplaces text).drop place) = some opener) :
    opener.kind = .replacement := by
  induction text using blankMultireplaces.induct generalizing place with
  | case1 rest ih =>
      simp only [blankMultireplaces] at found
      rcases place with _ | _ | place
      case succ.succ => exact ih found
      all_goals simp [at?] at found
  | case2 rest ih =>
      simp only [blankMultireplaces] at found
      rcases place with _ | _ | _ | place
      case succ.succ.succ => exact ih found
      all_goals simp [at?] at found
  | case3 rest ih =>
      simp only [blankMultireplaces] at found
      rcases place with _ | _ | _ | _ | place
      case succ.succ.succ.succ => exact ih found
      all_goals simp [at?] at found
  | case4 c rest noPlain noBang noBangs ih =>
      have step : blankMultireplaces (c :: rest) = c :: blankMultireplaces rest := by
        rw [blankMultireplaces] <;> assumption
      cases place with
      -- an opener that is left stands in the text before spaces are written, where none does
      | zero =>
          cases kind : opener.kind with
          | replacement => rfl
          | multireplace =>
              obtain ⟨head, shape, isPrefix⟩ := exists_prefix_of_multireplace found kind
              have noSpace : ' ' ∉ head := by rcases shape with rfl | rfl | rfl <;> decide
              obtain ⟨tail, whole⟩ := prefix_of_blankMultireplaces noSpace isPrefix
              rcases shape with rfl | rfl | rfl <;> cases whole
              · exact absurd rfl (noPlain tail rfl)
              · exact absurd rfl (noBang tail rfl)
              · exact absurd rfl (noBangs tail rfl)
      | succ place => exact ih (step ▸ found)
  | case5 => simp [blankMultireplaces, at?] at found

end Opener

namespace Opening

/-- All that opens where spaces are written over multireplace openers is a replacement. -/
theorem replacement_of_mem_between {text : Text} {start : Nat} {opening : Opening}
    (member : opening ∈ between (Opener.blankMultireplaces text) start
      (Opener.blankMultireplaces text).length) : opening.opener.kind = .replacement := by
  generalize prose : Opener.blankMultireplaces text = written at member
  generalize last : written.length = stop at member
  fun_induction between written start stop with
  | case1 => simp at member
  | case2 start skipped opener found opening' ih =>
      rcases List.mem_cons.1 member with rfl | later
      · have sought := Opener.found_of_seek found
        rw [← last, List.take_length, List.drop_drop, ← prose] at sought
        exact Opener.replacement_of_blankMultireplaces sought
      · exact ih later

end Opening

theorem CommandLine.length_render (line : CommandLine) : line.render.length = line.length := by
  simp only [render, length, List.length_append, List.length_cons]
  omega

namespace Construct

variable {text : Text} {construct : Construct}

theorem le_start_of_seek {lineStart : Bool} {offset : Nat}
    (found : seek lineStart offset text = some construct) : offset ≤ construct.start := by
  fun_induction seek lineStart offset text with
  | case1 => simp at found
  | case2 lineStart offset c rest line hit same =>
      obtain rfl := Option.some.inj found
      simp only [line] at same
      split at same
      · obtain ⟨read, -, rfl⟩ := Option.map_eq_some_iff.1 same
        exact Nat.le_succ _
      · split at same
        · obtain ⟨read, -, rfl⟩ := Option.map_eq_some_iff.1 same
          exact Nat.le_refl _
        · simp at same
  | case3 lineStart offset c rest line none opener hit =>
      obtain rfl := Option.some.inj found
      exact Nat.le_refl _
  | case4 lineStart offset c rest line none missing ih => exact Nat.le_of_succ_le (ih found)

theorem start_le_resume (text : Text) (construct : Construct) :
    construct.start ≤ construct.resume text := by
  cases construct with
  | commandLine start line => exact Nat.le_add_right _ _
  | inline opening => exact Opening.start_le_resume text opening

/-- Reading goes on inside the text. -/
theorem resume_le (stands : construct.StandsIn text 0) : construct.resume text ≤ text.length := by
  cases construct with
  | commandLine start line =>
      obtain ⟨skipped, rfl, part⟩ := stands
      have fits := part.length_le
      have positive := line.length_pos
      rw [line.length_render, List.length_drop] at fits
      simp only [resume]
      omega
  | inline opening => exact Opening.resume_le (by simpa [StandsIn] using stands)

/-- The constructs of a document stand one after another. -/
theorem allFrom_apart (text : Text) (start : Nat) :
    (∀ construct ∈ allFrom text start, start ≤ construct.start) ∧
      (allFrom text start).Pairwise fun a b => a.resume text ≤ b.start := by
  fun_induction allFrom text start with
  | case1 => exact ⟨by simp, .nil⟩
  | case2 start construct found ih =>
      have after := le_start_of_seek found
      have further := start_le_resume text construct
      refine ⟨List.forall_mem_cons.2 ⟨after, fun later member => ?_⟩, .cons ih.1 ih.2⟩
      have := ih.1 later member
      omega

end Construct

end ChoiceScript
