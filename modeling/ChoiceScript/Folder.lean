import ChoiceScript.OrderedMap
import ChoiceScript.Uri.Basic
import ChoiceScript.Vocabulary

/-! # Folders

The files of a project lie in one folder. A scene is named by a path from the folder, which may lead
out of it and in again: to what lies beside it nothing but the folder itself is known. A file that
is found stays known by the path it was found under.
-/

namespace ChoiceScript

/-- A folder: the plain path it is given by and its files, by their names in it. -/
structure Folder where
  path : Text
  files : OrderedMap Text

/-- A file of a folder: its name there and the path it was found under. -/
structure FoundFile where
  name : String
  path : Text
  deriving DecidableEq, Repr

/-- A file that was found under its own name. -/
def FoundFile.plain (name : String) : FoundFile := ⟨name, name.toList⟩

/-- Where a walk that starts in a folder stands: beside the folder, or in it behind the given names,
of which the last comes first. -/
inductive Place where
  | beside
  | inside (names : List Text)
  deriving DecidableEq, Repr

namespace Folder

def name (folder : Folder) : Text := Path.lastName folder.path

/-- The name of a file behind the given names. -/
def fileName (names : List Text) : String := String.ofList (Text.joinWith '/' names.reverse)

/-- Is the place a folder? Each folder inside holds a file. -/
def isFolder (folder : Folder) : Place → Bool
  | .beside | .inside [] => true
  | .inside names => folder.files.keys.any ((fileName names ++ "/").toList.isPrefixOf ·.toList)

def step? (folder : Folder) (place : Place) (name : Text) : Option Place :=
  if name = ['.', '.'] then
    match place with
    | .beside => none
    | .inside [] => some .beside
    | .inside (_ :: outer) => some (.inside outer)
  else
    match place with
    | .beside => if name = folder.name then some (.inside []) else none
    | .inside names => some (.inside (name :: names))

/-- The file at the end of a walk. All that lies on the way has to be folders. -/
def fileFrom? (folder : Folder) : Place → List Text → Option String
  | .inside names, [] => if folder.files.contains (fileName names) then fileName names else none
  | .beside, [] => none
  | place, name :: rest => do
    let next ← folder.step? place name
    if rest = [] || folder.isFolder next then folder.fileFrom? next rest else none

/-- The file of a scene. A path from the root leads to none. -/
def sceneFile? (folder : Folder) (scene : String) : Option FoundFile :=
  let path := Path.plain (scene ++ ".txt").toList
  if path.head? = some '/' then none
  else (⟨·, path⟩) <$> folder.fileFrom? (.inside []) (Text.splitOn '/' path)

def firstFiles (folder : Folder) (startupFile : String) : List FoundFile :=
  ([startupFile, Vocabulary.statsFile].filter folder.files.contains).map .plain

/-- The files of the listed scenes that are there and not indexed first. -/
def sceneFiles (folder : Folder) (first : List FoundFile) (scenes : List String) :
    List FoundFile :=
  (scenes.filterMap folder.sceneFile?).filter (!first.contains ·)

def isText (file : String) : Bool := ".txt".toList.isSuffixOf file.toList

/-- The other text files that lie in the folder itself, by name. -/
def otherFiles (folder : Folder) (indexed : List FoundFile) : List FoundFile :=
  let names := folder.files.keys.filter fun file =>
    isText file && !file.toList.contains '/' && !indexed.contains (.plain file)
  (names.mergeSort (· ≤ ·)).map .plain

def unifyBreaks : Text → Text
  | '\r' :: '\n' :: rest => '\n' :: unifyBreaks rest
  | '\r' :: rest => '\n' :: unifyBreaks rest
  | c :: rest => c :: unifyBreaks rest
  | [] => []

def text (folder : Folder) (file : FoundFile) : Text :=
  unifyBreaks ((folder.files.get? file.name).getD [])

/-- The path of a file from the root, behind one slash. A folder that is given by no path from the root
is taken to lie there. -/
def resolved (folder : Folder) (file : FoundFile) : Text :=
  '/' :: (Path.within folder.path file.name.toList).dropWhile (· = '/')

/-- The normal address of a file of the folder. -/
def uriOf (folder : Folder) (file : FoundFile) : Except Fault String :=
  Uri.normalize (Uri.ofFilePath (folder.resolved file))

end Folder

end ChoiceScript
