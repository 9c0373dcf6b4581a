import ChoiceScript.Rule.Basic

/-! # Rules on style

Exactly three dots should be an ellipsis and exactly two dashes an em dash, but for comments.

A star and a word count as a misplaced command when, padding apart, other text stands before them
on the line. The text is searched by runs of characters that are not white space: after the run
and its padding first, then from the end of the run back to its second character. The search goes
on after the word that is found.
-/

namespace ChoiceScript

/-- Punctuation that has a character of its own. -/
inductive Punctuation where
  | ellipsis
  | dash
  deriving DecidableEq, Repr

namespace Punctuation

def length : Punctuation → Nat
  | ellipsis => 3
  | dash => 2

def description : Punctuation → String
  | ellipsis => "ellipsis (…)"
  | dash => "em-dash (—)"

/-- The runs of exactly three dots and exactly two dashes in a text that starts at an offset;
`previous` is the character before it. -/
def find (previous : Option Char) (offset : Nat) : Text → List (Nat × Punctuation)
  | [] => []
  | '.' :: '.' :: '.' :: rest =>
    if previous ≠ some '.' && rest.head? ≠ some '.' then
      (offset, ellipsis) :: find (some '.') (offset + 3) rest
    else find (some '.') (offset + 1) ('.' :: '.' :: rest)
  | '-' :: '-' :: rest =>
    if previous ≠ some '-' && rest.head? ≠ some '-' then
      (offset, dash) :: find (some '-') (offset + 2) rest
    else find (some '-') (offset + 1) ('-' :: rest)
  | c :: rest => find (some c) (offset + 1) rest

end Punctuation

namespace Rule

/-- Finds punctuation that should be a character of its own. -/
def punctuation : Rule where
  code := Notice.styleGuide.code
  name := "styleUnicodePunctuation"
  category := "style"
  domain := "style"
  confidence := "policy"
  run inspection :=
    let text := inspection.document.text
    let outsideComments := (Punctuation.find none 0 text).filter fun (start, _) =>
      text.lineCommand start ≠ "comment"
    outsideComments.mapM fun (start, mark) =>
      Notice.styleGuide.between inspection.document start (start + mark.length)
        [("description", mark.description)]

end Rule

/-- A star and a word in the middle of a line: the offset of the star, and the word. -/
structure InnerCommand where
  star : Nat
  name : Text
  deriving DecidableEq, Repr

namespace InnerCommand

/-- The word after a star that a text starts with. -/
def starredWord? : Text → Option Text
  | '*' :: rest =>
    match rest.takeWhile Text.isWord with
    | [] => none
    | word => some word
  | _ => none

/-- The last starred word in the run of characters that a text starts with. -/
def lastInRun (offset : Nat) : Text → Option InnerCommand
  | [] => none
  | c :: rest =>
    if Text.isBlank c then none
    else (lastInRun (offset + 1) rest).or ((starredWord? (c :: rest)).map (⟨offset, ·⟩))

/-- The starred word right after the run of characters that a text starts with and the padding
after it. -/
def afterRun (offset : Nat) (text : Text) : Option InnerCommand :=
  let run := text.takeWhile (!Text.isBlank ·)
  let padding := (text.drop run.length).takeWhile Text.isPadding
  let skipped := run.length + padding.length
  (starredWord? (text.drop skipped)).map (⟨offset + skipped, ·⟩)

/-- The misplaced command of the run of characters that `c :: rest` starts with. -/
def ofRun (offset : Nat) (c : Char) (rest : Text) : Option InnerCommand :=
  (afterRun offset (c :: rest)).or (lastInRun (offset + 1) rest)

def stop (command : InnerCommand) : Nat := command.star + 1 + command.name.length

/-- The misplaced commands of a text that starts at an offset. -/
def find (offset : Nat) : Text → List InnerCommand
  | [] => []
  | c :: rest =>
    if Text.isBlank c then find (offset + 1) rest
    else match ofRun offset c rest with
    | some command =>
      command :: find command.stop (rest.drop (command.stop - offset - 1))
    | none =>
      let run := rest.takeWhile (!Text.isBlank ·)
      find (offset + 1 + run.length) (rest.drop run.length)
termination_by text => text.length
decreasing_by all_goals simp +arith [List.length_drop]

end InnerCommand

namespace Rule

/-- May a misplaced command stand where it does? Comments may hold anything, and conditions may
follow a command on the reuse of options. -/
def mayFollow (lineCommand name : String) : Bool :=
  lineCommand = "comment" ||
    (name = "if" || name = "selectable_if") && Vocabulary.reuseCommands.contains lineCommand

/-- Finds commands that follow other text on their line. -/
def placement : Rule where
  code := Notice.commandNotOnOwnLine.code
  name := "styleCommandOnOwnLine"
  category := "style"
  domain := "style"
  confidence := "heuristic"
  run inspection :=
    let text := inspection.document.text
    let misplaced := (InnerCommand.find 0 text).filter fun command =>
      let name := String.ofList command.name
      Vocabulary.commands.contains name && !mayFollow (text.lineCommand command.star) name
    misplaced.mapM fun command =>
      Notice.commandNotOnOwnLine.between inspection.document command.star command.stop
        [("command", String.ofList command.name)]

end Rule

end ChoiceScript
