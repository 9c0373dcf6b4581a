import ChoiceScript.Text.Delimiter
import ChoiceScript.Text.Line

/-! # Command lines

A command line is a star and a word at the start of a line, with padding before it and, parted from
the word by padding, the rest of the line after it. That rest holds the arguments: it is cut up into
words, into a name and the value after it, or into the targets of a jump.
-/

namespace ChoiceScript

/-- A command line, without its line break. -/
structure CommandLine where
  padding : Text
  name : Text
  spacing : Text
  rest : Text
  deriving DecidableEq, Repr

namespace CommandLine

/-- Does the character end a line for a command? -/
def endsLine (c : Char) : Bool := c = '\r' || c = '\n'

/-- The command line that a text starts with. A word without padding after it is the whole of its
command line, whatever follows. -/
def read? (text : Text) : Option CommandLine :=
  let padding := text.takeWhile Text.isPadding
  match text.dropWhile Text.isPadding with
  | '*' :: afterStar =>
    let name := afterStar.takeWhile Text.isWord
    let afterName := afterStar.dropWhile Text.isWord
    let spacing := afterName.takeWhile Text.isPadding
    let rest :=
      if spacing = [] then []
      else (afterName.dropWhile Text.isPadding).takeWhile (!endsLine ·)
    if name = [] then none else some ⟨padding, name, spacing, rest⟩
  | _ => none

def length (line : CommandLine) : Nat :=
  line.padding.length + 1 + line.name.length + line.spacing.length + line.rest.length

def render (line : CommandLine) : Text :=
  line.padding ++ '*' :: line.name ++ line.spacing ++ line.rest

/-- A command line that is read is the head of the text. -/
theorem render_prefix_of_read? {text : Text} {line : CommandLine} (h : read? text = some line) :
    line.render <+: text := by
  unfold read? at h
  dsimp only at h
  split at h
  · rename_i afterStar star
    split at h
    · simp at h
    · obtain rfl := Option.some.inj h
      have parts : text = text.takeWhile Text.isPadding ++ text.dropWhile Text.isPadding :=
        (List.takeWhile_append_dropWhile).symm
      have word : afterStar =
          afterStar.takeWhile Text.isWord ++ afterStar.dropWhile Text.isWord :=
        (List.takeWhile_append_dropWhile).symm
      rw [star] at parts
      simp only [render]
      conv => rhs; rw [parts, word]
      simp only [List.append_assoc, List.cons_append, List.prefix_append_right_inj,
        List.cons_prefix_cons, true_and]
      generalize afterStar.dropWhile Text.isWord = afterName
      have spacing : afterName =
          afterName.takeWhile Text.isPadding ++ afterName.dropWhile Text.isPadding :=
        (List.takeWhile_append_dropWhile).symm
      split
      · rename_i none
        simp [none]
      · conv => rhs; rw [spacing]
        rw [List.prefix_append_right_inj]
        exact List.takeWhile_prefix _
  · simp at h

/-- A command line has at least its star. -/
theorem length_pos (line : CommandLine) : 0 < line.length := by
  unfold length
  omega

end CommandLine

namespace Text

/-- The name of the command that starts the line of an offset and stands before it, or nothing. -/
def lineCommand (text : Text) (index : Nat) : String :=
  match CommandLine.read? ((text.take index).drop (text.lineBegin index)) with
  | some line => String.ofList line.name
  | none => ""

/-- The words of a text that starts at an offset. -/
def wordsFrom (offset : Nat) : Text → List Piece
  | [] => []
  | c :: rest =>
    if isWord c then
      let word := c :: rest.takeWhile isWord
      ⟨word, offset⟩ :: wordsFrom (offset + word.length) (rest.dropWhile isWord)
    else wordsFrom (offset + 1) rest
termination_by text => text.length
decreasing_by
  · have := (List.dropWhile_sublist isWord (l := rest)).length_le
    simp only [List.length_cons]
    omega
  · simp

/-- The expression after a name: what follows the shortest white space that is not followed by a
line feed or nothing, up to a line feed, and the length of that white space. -/
def valueAfter? : Text → Option (Nat × Text)
  | c :: d :: rest =>
    if !isBlank c then none
    else if d = '\n' then
      (valueAfter? (d :: rest)).map fun (spacing, value) => (spacing + 1, value)
    else some (1, (d :: rest).takeWhile (· ≠ '\n'))
  | _ => none

/-- The target of a jump at an offset of a line: a group in braces or the name of a label or
scene, or nothing. -/
def jumpTarget (line : Text) (start : Nat) : Text :=
  (tokenAt [('{', '}')] isLabel line start).getD []

/-- The two targets of a jump, parted by padding. Without padding there is no second one. -/
def jumpTargets (line : Text) : Piece × Piece :=
  let first := jumpTarget line 0
  let rest := line.drop first.length
  let spacing := if first = [] then [] else rest.takeWhile isPadding
  let second := if spacing = [] then [] else jumpTarget rest spacing.length
  (⟨first, 0⟩, ⟨second, first.length + spacing.length⟩)

/-- What stands between the first and last character of a text. -/
def inside (text : Text) : Text := text.tail.dropLast

end Text

end ChoiceScript
