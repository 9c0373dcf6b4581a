import ChoiceScript.CommandLine
import ChoiceScript.Parser.Command
import ChoiceScript.Parser.Opening

/-! # Reading documents

Three constructs are found at the top level of a document, from left to right: command lines, and
replacements and multireplaces in prose. A command line starts at the start of the text or after a
line feed. The search goes on after the end of a command line, and elsewhere as it does in strings.

A document is read once: the constructs are found first, which depends on the text alone, and read
one after another.
-/

namespace ChoiceScript

/-- A construct at the top level and the offset where it starts. -/
inductive Construct where
  | commandLine (start : Nat) (line : CommandLine)
  | inline (opening : Opening)
  deriving DecidableEq, Repr

namespace Construct

def start : Construct → Nat
  | commandLine start _ => start
  | inline opening => opening.start

def resume (text : Text) : Construct → Nat
  | commandLine start line => start + line.length
  | inline opening => opening.resume text

/-- The first construct of a text that starts at the given offset; `lineStart` says that a line
starts there. -/
def seek (lineStart : Bool) (offset : Nat) : Text → Option Construct
  | [] => none
  | c :: rest =>
    let line :=
      if c = '\n' then (CommandLine.read? rest).map (commandLine (offset + 1))
      else if lineStart then (CommandLine.read? (c :: rest)).map (commandLine offset)
      else none
    match line with
    | some found => some found
    | none =>
      match Opener.at? (c :: rest) with
      | some opener => some (inline ⟨opener, offset⟩)
      | none => seek false (offset + 1) rest

/-- The search always goes on further right. -/
theorem lt_resume_of_seek (whole : Text) {text : Text} {lineStart : Bool} {offset : Nat}
    {construct : Construct} (h : seek lineStart offset text = some construct) :
    offset < construct.resume whole ∧ text ≠ [] := by
  fun_induction seek lineStart offset text with
  | case1 => simp at h
  | case2 lineStart offset c rest line found same =>
    obtain rfl := Option.some.inj h
    simp only [line] at same
    refine ⟨?_, by simp⟩
    split at same
    · obtain ⟨line, _, rfl⟩ := Option.map_eq_some_iff.1 same
      simp only [resume]
      omega
    · split at same
      · obtain ⟨line, _, rfl⟩ := Option.map_eq_some_iff.1 same
        have := line.length_pos
        simp only [resume]
        omega
      · simp at same
  | case3 lineStart offset c rest line none opener found =>
    obtain rfl := Option.some.inj h
    refine ⟨?_, by simp⟩
    have := Opener.two_le_length_of_at? found
    have := Opening.contents_le_resume whole ⟨opener, offset⟩
    simp only [resume, Opening.contents] at *
    omega
  | case4 lineStart offset c rest line none missing ih =>
    have := ih h
    exact ⟨by omega, by simp⟩

/-- The constructs of a text from an offset on. -/
def allFrom (text : Text) (start : Nat) : List Construct :=
  match _found : seek (start = 0) start (text.drop start) with
  | none => []
  | some construct => construct :: allFrom text (construct.resume text)
termination_by text.length - start
decreasing_by
  obtain ⟨further, nonempty⟩ := lt_resume_of_seek text _found
  have : start < text.length := by
    refine Nat.lt_of_not_le fun le => nonempty ?_
    rw [List.drop_eq_nil_iff]
    exact le
  omega

def all (text : Text) : List Construct := allFrom text 0

end Construct

namespace Parser

def construct (construct : Construct) : Parser Unit := do
  match construct with
  | .commandLine start line =>
    command line.padding (String.ofList line.name) line.spacing line.rest
      (start + line.padding.length + 1)
  | .inline opening =>
    let text := (← document).text
    openingWith text (descent text.length) 0 opening

def whole : Parser Unit := do
  (Construct.all (← document).text).forM construct

end Parser

namespace Source

/-- All that a document reports, unless reading it fails. -/
def reports (source : Source) : Except Fault (List Report) :=
  match Parser.whole.run source with
  | (.ok (), progress) => .ok progress.reports
  | (.error fault, _) => .error fault

end Source

end ChoiceScript
