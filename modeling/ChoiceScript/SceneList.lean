import ChoiceScript.Text.Line

/-! # Lists of scenes

The scenes of a project are named one to a line below `*scene_list`, all lines padded alike. Blank
lines in between are passed over. A dollar sign before a name marks a scene that costs money and is
not part of the name; one that nothing follows is the name itself.
-/

namespace ChoiceScript

/-- The padding of a line that names a scene, and the name. -/
structure SceneEntry where
  padding : Text
  name : Text
  deriving DecidableEq, Repr

namespace SceneEntry

/-- A run of characters that are not white space, followed by nothing but padding and a
terminator. -/
def loneName? (text : Text) : Option Text :=
  let name := text.takeWhile (!Text.isBlank ·)
  let rest := (text.drop name.length).dropWhile Text.isPadding
  if name ≠ [] && [[], ['\r'], ['\n'], ['\r', '\n']].contains rest then some name else none

/-- The name that follows a marker, if there is one. -/
def markedName? : Text → Option Text
  | '$' :: rest => loneName? (rest.dropWhile Text.isPadding)
  | _ => none

def ofLine? (line : Text) : Option SceneEntry :=
  let padding := line.takeWhile Text.isPadding
  let contents := line.dropWhile Text.isPadding
  if padding = [] then none
  else ((markedName? contents).or (loneName? contents)).map (⟨padding, ·⟩)

/-- The names on the first lines of a list that all have an entry with one padding, which the first
of them fixes unless it is given, each with the offset where its line stops. -/
def accept (padding : Option Text) : List Piece → List (Text × Nat)
  | [] => []
  | line :: lines =>
    match ofLine? line.text with
    | none => []
    | some entry =>
      if padding.all (· = entry.padding) then
        (entry.name, line.stop) :: accept (some entry.padding) lines
      else []

end SceneEntry

/-- The names of scenes on the lines of a text from an offset on, with the offsets where the lines
stop. -/
def Text.sceneNames (text : Text) (start : Nat) : List (Text × Nat) :=
  SceneEntry.accept none ((text.linesFrom start).filter fun line => !blank line.text)

end ChoiceScript
