import ChoiceScript.Text.Basic

/-! # Paths

A path is a list of names between slashes. Its normal form has no empty name, no `.`, and no `..`
that a name before it could take back; a path from the root has no `..` at all. Two slashes at the
start, no more and no fewer, are kept.
-/

namespace ChoiceScript.Path

def rootOf : Text → Text
  | '/' :: '/' :: '/' :: _ => ['/']
  | '/' :: '/' :: _ => ['/', '/']
  | '/' :: _ => ['/']
  | _ => []

/-- Take one name into the names kept so far, which stand in reverse. -/
def step (rooted : Bool) (kept : List Text) (name : Text) : List Text :=
  if name = [] || name = ['.'] then kept
  else if name = ['.', '.'] then
    match kept with
    | [] => if rooted then [] else [name]
    | last :: before => if last = ['.', '.'] then name :: kept else before
  else name :: kept

def names (path : Text) : List Text :=
  ((Text.splitOn '/' path).foldl (step (path.head? = some '/')) []).reverse

/-- The normal form of a path; one that holds nothing is `.`. -/
def normalize (path : Text) : Text :=
  match rootOf path ++ Text.joinWith '/' (names path) with
  | [] => ['.']
  | normal => normal

/-- A path without the names that change nothing in it, which are the empty one and `.`. -/
def plain (path : Text) : Text :=
  let names := (Text.splitOn '/' path).filter fun name => name ≠ [] && name ≠ ['.']
  rootOf path ++ Text.joinWith '/' names

def trimSlashes (path : Text) : Text := (path.reverse.dropWhile (· = '/')).reverse

def lastName (path : Text) : Text := (path.reverse.takeWhile (· ≠ '/')).reverse

/-- What stands before the last name, without the slashes at its end unless it is all slashes. -/
def folder (path : Text) : Text :=
  let head := (path.reverse.dropWhile (· ≠ '/')).reverse
  if head.all (· = '/') then head else trimSlashes head

/-- A path seen from a folder. A path from the root stays as it is. -/
def within (folder path : Text) : Text :=
  if path.head? = some '/' then path
  else if folder = [] || folder.getLast? = some '/' then folder ++ path
  else folder ++ '/' :: path

end ChoiceScript.Path
