import ChoiceScript.Parser.Document

/-! # Where constructs open

What opens in a text opens inside it, opener and all, and a command line that is found is just what
the text has there. Writing spaces over multireplace openers leaves every other character alone.
-/

namespace ChoiceScript

namespace Opener

theorem seek_bound {found : Text → Option Opener} {text : Text} {skipped : Nat} {opener : Opener}
    (short : ∀ {text opener}, found text = some opener → opener.length ≤ text.length)
    (hit : seek found text = some (skipped, opener)) : skipped + opener.length ≤ text.length := by
  induction text generalizing skipped with
  | nil => simp [seek] at hit
  | cons c rest ih =>
      unfold seek at hit
      split at hit
      · rename_i here
        obtain ⟨rfl, rfl⟩ := Prod.mk.inj (Option.some.inj hit)
        have := short here
        omega
      · obtain ⟨⟨before, opener⟩, later, same⟩ := Option.map_eq_some_iff.1 hit
        obtain ⟨rfl, rfl⟩ := Prod.mk.inj same
        have := ih later
        simp only [List.length_cons]
        omega

theorem length_le_of_at? {text : Text} {opener : Opener} (found : at? text = some opener) :
    opener.length ≤ text.length := (two_le_length_of_at? found).2

theorem length_le_of_multireplaceAt? {text : Text} {opener : Opener}
    (found : multireplaceAt? text = some opener) : opener.length ≤ text.length :=
  length_le_of_at? (Option.filter_eq_some_iff.1 found).1

/-- Spaces are written over openers only. -/
theorem space_or_same_of_blankMultireplaces {text : Text} {i : Nat} {c : Char}
    (written : (blankMultireplaces text)[i]? = some c) : c = ' ' ∨ text[i]? = some c := by
  induction text using blankMultireplaces.induct generalizing i with
  | case1 rest ih =>
      simp only [blankMultireplaces] at written
      rcases i with _ | _ | i
      case succ.succ => exact ih written
      all_goals exact .inl (by simpa using written.symm)
  | case2 rest ih =>
      simp only [blankMultireplaces] at written
      rcases i with _ | _ | _ | i
      case succ.succ.succ => exact ih written
      all_goals exact .inl (by simpa using written.symm)
  | case3 rest ih =>
      simp only [blankMultireplaces] at written
      rcases i with _ | _ | _ | _ | i
      case succ.succ.succ.succ => exact ih written
      all_goals exact .inl (by simpa using written.symm)
  | case4 c rest noPlain noBang noBangs ih =>
      rw [blankMultireplaces] at written
      · cases i with
        | zero => exact .inr written
        | succ i => exact ih written
      all_goals assumption
  | case5 => exact .inr written

end Opener

namespace Opening

theorem contents_le_of_mem_between {text : Text} {start stop : Nat} {opening : Opening}
    (member : opening ∈ between text start stop) : opening.contents ≤ text.length := by
  fun_induction between text start stop with
  | case1 => simp at member
  | case2 start skipped opener found opening ih =>
      rcases List.mem_cons.1 member with rfl | later
      · have fits := Opener.seek_bound Opener.length_le_of_at? found
        have := length_pos_of_seek found
        simp only [contents, opening]
        simp only [List.length_drop, List.length_take] at fits
        omega
      · exact ih later

theorem seek_bound {escaped : Bool} {text : Text} {skipped : Nat} {opener : Opener}
    (hit : StringMark.seek escaped text = some (skipped, .construct opener)) :
    skipped + opener.length ≤ text.length := by
  induction text generalizing skipped escaped with
  | nil => simp [StringMark.seek] at hit
  | cons c rest ih =>
      simp only [StringMark.seek] at hit
      split at hit
      · rename_i here
        obtain ⟨rfl, same⟩ := Prod.mk.inj (Option.some.inj hit)
        cases same
        have := Opener.length_le_of_at? here
        omega
      · split at hit
        · simp at hit
        · obtain ⟨⟨before, mark⟩, later, same⟩ := Option.map_eq_some_iff.1 hit
          obtain ⟨rfl, rfl⟩ := Prod.mk.inj same
          have := ih later
          simp only [List.length_cons]
          omega

theorem contents_le_of_mem_inString {text : Text} {start : Nat} {opening : Opening}
    (member : opening ∈ (inString text start).1) : opening.contents ≤ text.length := by
  fun_induction inString text start with
  | case1 => simp at member
  | case2 => simp at member
  | case3 start skipped opener found opening openings stop rest ih =>
      rcases List.mem_cons.1 member with rfl | later
      · have fits := seek_bound found
        have := StringMark.length_pos_of_seek found
        simp only [contents, opening]
        simp only [List.length_drop] at fits
        omega
      · exact ih (by simpa [rest] using later)

end Opening

namespace Construct

/-- A construct is what a text that starts at an offset has where it starts. -/
def StandsIn (text : Text) (offset : Nat) : Construct → Prop
  | commandLine start line =>
      ∃ skipped, start = offset + skipped ∧ line.render <+: text.drop skipped
  | inline opening => opening.contents ≤ offset + text.length

theorem StandsIn.shift {construct : Construct} {text : Text} {offset : Nat} (skipped : Nat)
    (stands : construct.StandsIn (text.drop skipped) (offset + skipped))
    (fits : skipped ≤ text.length) : construct.StandsIn text offset := by
  cases construct with
  | commandLine start line =>
      obtain ⟨further, rfl, part⟩ := stands
      exact ⟨skipped + further, by omega, by rwa [List.drop_drop] at part⟩
  | inline opening =>
      simp only [StandsIn, List.length_drop] at stands ⊢
      omega

theorem standsIn_of_seek {text : Text} {lineStart : Bool} {offset : Nat} {construct : Construct}
    (hit : seek lineStart offset text = some construct) : construct.StandsIn text offset := by
  fun_induction seek lineStart offset text with
  | case1 => simp at hit
  | case2 lineStart offset c rest line found same =>
      obtain rfl := Option.some.inj hit
      simp only [line] at same
      split at same
      · obtain ⟨read, present, rfl⟩ := Option.map_eq_some_iff.1 same
        exact ⟨1, rfl, CommandLine.render_prefix_of_read? present⟩
      · split at same
        · obtain ⟨read, present, rfl⟩ := Option.map_eq_some_iff.1 same
          exact ⟨0, rfl, CommandLine.render_prefix_of_read? present⟩
        · simp at same
  | case3 lineStart offset c rest line none opener found =>
      obtain rfl := Option.some.inj hit
      have := Opener.length_le_of_at? found
      simp only [StandsIn, Opening.contents]
      omega
  | case4 lineStart offset c rest line none missing ih =>
      exact (ih hit).shift 1 (by simp)

/-- Every construct of a text from an offset on stands in it. -/
theorem standsIn_of_mem_allFrom {text : Text} {start : Nat} {construct : Construct}
    (member : construct ∈ allFrom text start) : construct.StandsIn text 0 := by
  fun_induction allFrom text start with
  | case1 => simp at member
  | case2 start construct found ih =>
      rcases List.mem_cons.1 member with rfl | further
      · have nonempty := (lt_resume_of_seek text found).2
        have fits : start ≤ text.length := by
          refine Nat.le_of_not_lt fun past => nonempty ?_
          exact List.drop_eq_nil_of_le (Nat.le_of_lt past)
        refine StandsIn.shift start ?_ fits
        rw [Nat.zero_add]
        exact standsIn_of_seek found
      · exact ih further

/-- Every construct of a text stands in it. -/
theorem standsIn_of_mem_all {text : Text} {construct : Construct} (member : construct ∈ all text) :
    construct.StandsIn text 0 := standsIn_of_mem_allFrom member

theorem allFrom_eq (text : Text) (start : Nat) :
    allFrom text start =
      match seek (start = 0) start (text.drop start) with
      | none => []
      | some construct => construct :: allFrom text (construct.resume text) := by
  rw [allFrom]
  split <;> simp only [*]

end Construct

end ChoiceScript
