import ChoiceScript.Folder
import ChoiceScript.Workspace

/-! # Listings

The tokens of an expression are listed one to a line, and then its lexing errors.

To check a project, the files of a folder are indexed in order: the startup file, the file of the
statistics screen, the scenes as they are listed, and then the other text files by name. Each is
checked, and the diagnostics are written file by file, with lines and columns counted from one.
-/

namespace ChoiceScript

namespace Report

def span (start stop : Nat) : String :=
  "span=(" ++ toString start ++ "," ++ toString stop ++ ")"

/-- The line of a token, which comes at a given place of the list. -/
def tokenLine (place : Nat) (token : Token) : String :=
  "[" ++ toString place ++ "] kind=" ++ token.kind.name ++ " text="
    ++ String.ofList (Text.quoted token.text) ++ " " ++ span token.start token.stop

def errorLine (error : LexError) : String :=
  error.problem.notice.code ++ " " ++ span error.start error.stop ++ ": "
    ++ error.problem.notice.message.source

/-- What a listing says, line by line, and whether all is well. -/
structure Listing where
  lines : List String
  passed : Bool
  deriving DecidableEq, Repr

/-- The listing of an expression's tokens, combined or not. -/
def tokens (text : Text) (combined : Bool) : Listing :=
  let expression := Expression.ofText text 0
  let shown := if combined then expression.combined else expression.tokens
  ⟨shown.mapIdx tokenLine ++ expression.errors.map errorLine, expression.errors = []⟩

end Report

/-- Why a folder cannot be checked. -/
inductive FolderProblem where
  | missing (folder : String)
  | noStartup (startupFile folder : String)
  deriving DecidableEq, Repr

def FolderProblem.message : FolderProblem → String
  | missing folder => "Invalid scene root: " ++ folder
  | noStartup startupFile folder => "No " ++ startupFile ++ " found under " ++ folder

namespace Report

/-- Open a file of a folder, and note the path that its address was found under. -/
def openFile (folder : Folder) (opened : Workspace × OrderedMap Text) (file : FoundFile) :
    Except Fault (Workspace × OrderedMap Text) := do
  let uri ← folder.uriOf file
  match opened.1.update uri (folder.text file) with
  | (.error fault, _) => .error fault
  | (.ok _, updated) => .ok (updated, opened.2.insert uri file.path)

/-- Open files one after another. A file that is found again is known by the later path. -/
def openFiles (folder : Folder) (files : List FoundFile) (workspace : Workspace)
    (pathOf : OrderedMap Text) : Except Fault (Workspace × OrderedMap Text) :=
  files.foldlM (openFile folder) (workspace, pathOf)

def diagnosticLine (path : Text) (diagnostic : Diagnostic) : String :=
  let start := diagnostic.range.start
  String.ofList path ++ ":" ++ toString (start.line + 1) ++ ":"
    ++ toString (start.character + 1) ++ ": " ++ diagnostic.severity.name ++ " "
    ++ diagnostic.code ++ ": " ++ diagnostic.message

/-- The diagnostics of a document, each with the path of its file. -/
def fileDiagnostics (workspace : Workspace) (pathOf : OrderedMap Text) (uri : String) :
    Except Fault (List (Text × Diagnostic)) := do
  let diagnostics ← workspace.diagnostics uri
  return diagnostics.map fun diagnostic => ((pathOf.get? uri).getD uri.toList, diagnostic)

/-- The diagnostics of all open documents. -/
def allDiagnostics (workspace : Workspace) (pathOf : OrderedMap Text) :
    Except Fault (List (Text × Diagnostic)) := do
  let found ← workspace.uris.mapM (fileDiagnostics workspace pathOf)
  return found.flatten

/-- The listing of diagnostics, of all or of errors only, and of their numbers. -/
def ofDiagnostics (folder : Text) (files : Nat) (found : List (Text × Diagnostic))
    (errorsOnly : Bool) : Listing :=
  let errors := found.filter (·.2.severity = .error)
  let shown := if errorsOnly then errors else found
  let lines := shown.map fun (file, diagnostic) => diagnosticLine (Path.within folder file) diagnostic
  ⟨lines ++ [
    "Files: " ++ toString files,
    "Diagnostics: " ++ toString shown.length ++ " (" ++ toString errors.length ++ " error(s))"],
    errors = []⟩

def indexed (folder : Folder) (first : List FoundFile) (errorsOnly : Bool) :
    Except Fault Listing := do
  let (started, pathOf) ← openFiles folder first {} ∅
  let scenes := folder.sceneFiles first started.index.scenes
  let others := folder.otherFiles (first ++ scenes)
  let (workspace, pathOf) ← openFiles folder (scenes ++ others) started pathOf
  let found ← allDiagnostics workspace pathOf
  return ofDiagnostics folder.path workspace.uris.length found errorsOnly

/-- Check the files at a path, unless they are missing or there is none to start with. -/
def project (path : String) (files : Option (OrderedMap Text)) (errorsOnly : Bool) :
    Except Fault (Except FolderProblem Listing) :=
  let plain := Path.plain path.toList
  let shown := if plain = [] then "." else String.ofList plain
  match files with
  | none => .ok (.error (.missing shown))
  | some files =>
    let folder : Folder := ⟨plain, files⟩
    match folder.firstFiles Vocabulary.startupFile with
    | [] => .ok (.error (.noStartup Vocabulary.startupFile shown))
    | first => .ok <$> indexed folder first errorsOnly

end Report

end ChoiceScript
