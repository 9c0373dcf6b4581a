import ChoiceScript.Rule.Basic

/-! # Rules on meaning

A jump to a scene needs the scene to be listed, and a jump to a label needs the label in its file.
Targets in braces are computed when the game runs and are not looked at.

A variable must be created somewhere, and in its own file before it is used. Built-in variables
always exist; those of achievements and parameters exist from the command on that opens their
scope.
-/

namespace ChoiceScript.Rule

def isComputed (target : String) : Bool := target.toList.head? = some '{'

/-- What is wrong with a label that should be in a file. -/
def labelDiagnostics (inspection : Inspection) (label uri : String) (location : Location) :
    Except Fault (List Diagnostic) := do
  if (inspection.index.document uri).labels.contains label then return []
  else
    let file ← Uri.fileName uri
    return [← Notice.labelNotFound.onRange location.range [("label", label), ("filename", file)]]

/-- What is wrong with a jump to a label, whose file is looked for if the label must be there. -/
def checkedLabel (inspection : Inspection) (event : FlowEvent)
    (file? : Except Fault (Option String)) : Except Fault (List Diagnostic) := do
  match event.labelLocation with
  | none => return []
  | some location =>
    if event.label = "" || isComputed event.label then return []
    else match ← file? with
    | none => return []
    | some uri => labelDiagnostics inspection event.label uri location

def jumpDiagnostics (inspection : Inspection) (event : FlowEvent) :
    Except Fault (List Diagnostic) := do
  match event.sceneLocation with
  | some location =>
    if event.scene = "" then
      checkedLabel inspection event (.ok (some inspection.document.uri))
    else if isComputed event.scene then return []
    else if !inspection.index.scenes.contains event.scene then
      return [← Notice.sceneNotFound.onRange location.range [("scene", event.scene)]]
    else checkedLabel inspection event (inspection.index.sceneUri? event.scene)
  | none => checkedLabel inspection event (.ok (some inspection.document.uri))

/-- Finds jumps to scenes that are not listed and to labels that are not there. -/
def jumps : Rule where
  code := Notice.labelNotFound.code
  name := "semanticFlowControlTarget"
  category := "semantic"
  domain := "semantic"
  confidence := "policy"
  run inspection := do
    let found ← inspection.documentIndex.flowEvents.mapM (jumpDiagnostics inspection)
    return found.flatten

def outside (scopes : List Range) (locations : List Location) : List Location :=
  locations.filter fun location => !scopes.any (·.contains location.range)

/-- The uses of a variable that is created nowhere, less those that a scope allows. -/
def undefinedUses (inspection : Inspection) (name : String) (locations : List Location) :
    List Location :=
  let scopes := inspection.documentIndex.scopes
  let locations :=
    if scopes.achievement ≠ [] &&
        Vocabulary.isAchievementVariable inspection.index.achievements.keys name then
      outside scopes.achievement locations
    else locations
  if scopes.param ≠ [] && Vocabulary.isParameterVariable name then
    outside scopes.param locations
  else locations

/-- Is a location in the same file as a creation and before it? -/
def precedes (location creation : Location) : Bool :=
  location.uri = creation.uri && location.range.stop < creation.range.start

/-- What is wrong with the uses of a variable; `place` says where it was looked for. -/
def variableDiagnostics (inspection : Inspection) (place name : String)
    (locations : List Location) : Except Fault (List Diagnostic) :=
  match inspection.creation? name with
  | some creation =>
    (locations.filter (precedes · creation)).mapM fun location =>
      Notice.usedBeforeCreation.onRange location.range [("variable", name)]
  | none =>
    if Vocabulary.builtinVariables.contains name then .ok []
    else (undefinedUses inspection name locations).mapM fun location =>
      Notice.undefinedVariable.onRange location.range [("variable", name), ("where", place)]

/-- Finds variables that are used before they are created, or never created. -/
def variableUse : Rule where
  code := Notice.undefinedVariable.code
  name := "semanticVariableReference"
  category := "semantic"
  domain := "semantic"
  confidence := "policy"
  run inspection := do
    let isStartup ← inspection.index.isStartup inspection.document.uri
    let place := if isStartup then "in this file" else "in this file or startup.txt"
    let found ← inspection.documentIndex.references.entries.mapM fun (name, locations) =>
      variableDiagnostics inspection place name locations
    return found.flatten

end ChoiceScript.Rule
