import ChoiceScript.Rule.Semantic
import ChoiceScript.Rule.Style

/-! # Workspaces

A workspace holds the open documents and their project index and keeps the two in step. Opening,
changing and closing a document tells which documents have to be checked anew: all of them when it
is the startup file. A document is kept even if it then cannot be indexed.

The diagnostics of a document are the errors found when it was indexed and what the rules find, in
order of place.
-/

namespace ChoiceScript

/-- The rules that apply unless others are chosen, by category and code. -/
def Rule.defaults : List Rule := [Rule.jumps, Rule.variableUse, Rule.placement, Rule.punctuation]

namespace ProjectIndex

/-- Check a document by some rules. All rules are looked at before any is run. -/
def check (index : ProjectIndex) (document : Document) (rules : List Rule) :
    Except Fault (List Diagnostic) := do
  rules.forM Rule.validate
  let inspection := Inspection.of document index
  let found ← rules.mapM (·.run inspection)
  return Diagnostic.sort ((index.document document.uri).errors ++ found.flatten)

end ProjectIndex

/-- The open documents of a project, by their normal addresses. -/
structure Workspace where
  index : ProjectIndex := {}
  documents : OrderedMap Document := ∅

namespace Workspace

/-- The workspace of a project with the given name for its startup file. -/
def ofStartupFile (startupFile : String) : Workspace := { index := { startupFile } }

def uris (workspace : Workspace) : List String := workspace.documents.keys

def document? (workspace : Workspace) (uri : String) : Except Fault (Option Document) :=
  return workspace.documents.get? (← Uri.normalize uri)

/-- The version that a text gets which is put in the place of a document. -/
def nextVersion (previous : Option Document) : Nat :=
  match previous with
  | some document => document.version + 1
  | none => 0

def update (workspace : Workspace) (uri : String) (text : Text) :
    Except Fault (List String) × Workspace :=
  match Uri.normalize uri with
  | .error fault => (.error fault, workspace)
  | .ok uri =>
    let document := ⟨uri, text, nextVersion (workspace.documents.get? uri)⟩
    let opened := { workspace with documents := workspace.documents.insert uri document }
    match opened.index.indexDocument document opened.index.startupFile with
    | .error fault => (.error fault, opened)
    | .ok indexed =>
      (.ok (if indexed.isStartup then opened.uris else [uri]),
        { opened with index := indexed.project })

def close (workspace : Workspace) (uri : String) : Except Fault (List String) × Workspace :=
  match Uri.normalize uri with
  | .error fault => (.error fault, workspace)
  | .ok uri =>
    if workspace.documents.contains uri then
      let closed : Workspace := ⟨workspace.index.remove uri, workspace.documents.erase uri⟩
      match closed.index.isStartup uri with
      | .error fault => (.error fault, closed)
      | .ok isStartup => (.ok (if isStartup then closed.uris else []), closed)
    else (.ok [], workspace)

def diagnostics (workspace : Workspace) (uri : String) : Except Fault (List Diagnostic) := do
  let uri ← Uri.normalize uri
  match workspace.documents.get? uri with
  | none => .error (.unknownDocument uri)
  | some document => workspace.index.check document Rule.defaults

end Workspace

end ChoiceScript
