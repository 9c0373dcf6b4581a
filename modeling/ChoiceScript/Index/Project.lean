import ChoiceScript.Index.Summary
import ChoiceScript.Parser.Document

/-! # Project indexes

A project index holds the index of every document, under its address, and what the startup file
says for the whole project: variables, scenes and achievements.

A subroutine runs from its label to the first return on a later line. The variables that it creates
count as created where it is first called, for that is when they come to be.
-/

namespace ChoiceScript

/-- What is known of a project. -/
structure ProjectIndex where
  startupFile : String := Vocabulary.startupFile
  documents : OrderedMap DocumentIndex := ∅
  startupUri : Option String := none
  globalVariables : Creations := ∅
  scenes : List String := []
  achievements : Creations := ∅

namespace ProjectIndex

/-- The index of a document; one that is not known has an empty index. -/
def document (index : ProjectIndex) (uri : String) : DocumentIndex :=
  (index.documents.get? uri).getD ∅

/-- Put an index in the place of a document's. -/
def replace (index : ProjectIndex) (uri : String) (document : DocumentIndex) : ProjectIndex :=
  { index with documents := index.documents.insert uri document }

def modify (index : ProjectIndex) (uri : String) (change : DocumentIndex → DocumentIndex) :
    ProjectIndex :=
  index.replace uri (change (index.document uri))

/-- Set the variables of the whole project and say which file they come from. -/
def setGlobalVariables (index : ProjectIndex) (uri : String) (created : Creations) :
    ProjectIndex :=
  { index with startupUri := some uri, globalVariables := created }

/-- Forget a document, and with the startup file all that it says. -/
def remove (index : ProjectIndex) (uri : String) : ProjectIndex :=
  let kept := { index with documents := index.documents.erase uri }
  if index.startupUri = some uri then
    { kept with startupUri := none, globalVariables := ∅, scenes := [], achievements := ∅ }
  else kept

def isStartup (index : ProjectIndex) (uri : String) : Except Fault Bool :=
  Uri.isStartup index.startupFile uri

/-- The address of a scene's file, which stands beside the startup file. -/
def sceneUri? (index : ProjectIndex) (scene : String) : Except Fault (Option String) :=
  match index.startupUri with
  | none => .ok none
  | some uri => some <$> Uri.sibling uri (scene ++ ".txt")

/-- Read a document and put what it says in the place of what was known of it. -/
def update (index : ProjectIndex) (document : Document) (isStartup : Bool)
    (startupFile : String) : Except Fault (DocumentIndex × ProjectIndex) := do
  let reports ← Source.reports { document, startupFile }
  let summary := Summary.ofReports isStartup reports
  let documentIndex ← summary.documentIndex document
  let replaced := index.replace document.uri documentIndex
  if isStartup then
    return (documentIndex, { replaced.setGlobalVariables document.uri summary.globalVariables with
      scenes := summary.scenes
      achievements := summary.achievements })
  else return (documentIndex, replaced)

/-- What comes of indexing a document: whether it is the startup file, its index, and the index of
the project. -/
structure Indexed where
  isStartup : Bool
  document : DocumentIndex
  project : ProjectIndex

/-- Tell by its address whether a document is the startup file and update its index. -/
def indexDocument (index : ProjectIndex) (document : Document) (startupFile : String) :
    Except Fault Indexed := do
  let isStartup ← Uri.isStartup startupFile document.uri
  let (documentIndex, project) ← index.update document isStartup startupFile
  return ⟨isStartup, documentIndex, project⟩

/-- The first of some returns that stands on a later line than a label. -/
def firstReturnAfter (returns : List FlowEvent) (label : Location) : Option FlowEvent :=
  returns.find? fun event => label.range.start.line < event.commandLocation.range.start.line

/-- Does a subroutine, from its label to its return, hold a location? -/
def subroutineHolds (label : Location) (exit : FlowEvent) (location : Location) : Bool :=
  label.range.stop ≤ location.range.start &&
    location.range.start ≤ exit.commandLocation.range.start

/-- Take the variables in a subroutine for created where it is called, unless they are already. -/
def addCall (created : Creations) (call label : Location) (exit : FlowEvent)
    (effective : Creations) : Creations :=
  created.entries.foldl (fun effective (name, location) =>
    if subroutineHolds label exit location then effective.insertNew name call else effective)
    effective

/-- Where the variables of a document's subroutines count as created. -/
def effectiveCreations (index : ProjectIndex) (uri : String) : Creations :=
  let document := index.document uri
  let returns := document.flowEvents.filter (·.command = "return")
  let calls := document.flowEvents.filter (·.command = "gosub")
  calls.foldl (fun effective call =>
    match document.labels.get? call.label with
    | none => effective
    | some label =>
      match firstReturnAfter returns label with
      | none => effective
      | some exit => addCall document.localVariables call.commandLocation label exit effective) ∅

end ProjectIndex

end ChoiceScript
