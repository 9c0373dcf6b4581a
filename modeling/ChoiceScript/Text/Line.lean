import ChoiceScript.Text.Character

/-! # Lines and indentation

A line runs up to and including its line feed; a carriage return alone ends none. Lines are read
by cutting the rest of a text, so that what is read from an offset is a list of lines, each with
the offset where it starts.
-/

namespace ChoiceScript

/-- A line parted into its leading padding and what follows, less the terminator. -/
structure Indented where
  padding : Text
  contents : Text
  deriving DecidableEq, Repr

namespace Text

def cutLines : Text → List Text
  | [] => []
  | c :: rest =>
    if c = '\n' then [c] :: cutLines rest
    else match cutLines rest with
      | [] => [[c]]
      | line :: lines => (c :: line) :: lines

/-- Nothing is lost where lines are cut. -/
theorem flatten_cutLines (text : Text) : (cutLines text).flatten = text := by
  fun_induction cutLines text <;> simp_all

def placeLines (start : Nat) : List Text → List Piece
  | [] => []
  | line :: lines => ⟨line, start⟩ :: placeLines (start + line.length) lines

/-- The lines of a text from an offset on. The first is what is left of the line there. -/
def linesFrom (text : Text) (start : Nat) : List Piece :=
  placeLines start (cutLines (text.drop start))

/-- The line from an offset on, none at the end of the text. -/
def readLine (text : Text) (start : Nat) : Option Piece :=
  (linesFrom text start).head?

/-- The first line from an offset on that holds more than white space. -/
def readNonblankLine (text : Text) (start : Nat) : Option Piece :=
  (linesFrom text start).find? fun line => !blank line.text

/-- One past the end of the line that holds an offset, none at the end of the text. -/
def lineEnd? (text : Text) (start : Nat) : Option Nat :=
  (readLine text start).map Piece.stop

/-- One past the last line feed among the characters up to and including the one at `start`. -/
def lineBegin (text : Text) (start : Nat) : Nat :=
  let before := text.take (start + 1)
  before.length - (before.reverse.takeWhile (· ≠ '\n')).length

/-- The endings that do not belong to an indented line's contents. A text that ends in two line
feeds loses both. -/
def terminators : List Text :=
  [[], ['\r'], ['\n'], ['\r', '\n'], ['\n', '\n'], ['\r', '\n', '\n']]

def withoutTerminator : Text → Text
  | [] => []
  | c :: rest => if c :: rest ∈ terminators then [] else c :: withoutTerminator rest

/-- Part an indented line; a line without padding has no parts. -/
def indented? (line : Text) : Option Indented :=
  match line.takeWhile isPadding with
  | [] => none
  | padding => some ⟨padding, withoutTerminator (line.dropWhile isPadding)⟩

/-- The lines at the head of a list that are padded by more than `level` copies of one character,
which the first of them fixes unless it is given. -/
def indentedLines (level : Nat) : Option Char → List Text → List Text
  | _, [] => []
  | unit, line :: lines =>
    let padding := line.takeWhile isPadding
    match unit.or padding.head? with
    | none => []
    | some c =>
      if blank line || padding.length ≤ level || padding.any (· ≠ c) then []
      else line :: indentedLines level (some c) lines

/-- The block of lines from an offset on that are indented deeper than `level`, all in one way. -/
def indentedBlock (text : Text) (level start : Nat) : Text :=
  (indentedLines level none (cutLines (text.drop start))).flatten

end Text

end ChoiceScript
