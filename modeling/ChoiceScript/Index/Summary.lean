import ChoiceScript.Document.Basic
import ChoiceScript.Event
import ChoiceScript.OrderedMap

/-! # Document indexes

What the project knows of one document: the names it creates and refers to, its jumps, the scopes of
its special variables, and its errors. A summary collects this from the reports of the document. The
first creation of a name counts; references are kept all, in order. Variables of the whole project
come from the startup file only: in any other file `*create` makes a local variable.
-/

namespace ChoiceScript

abbrev Creations := OrderedMap Location

abbrev References := OrderedMap (List Location)

/-- Where the variables of achievements and of parameters may be used. -/
structure VariableScopes where
  achievement : List Range := []
  param : List Range := []
  deriving DecidableEq

/-- What the project knows of one document. -/
structure DocumentIndex where
  localVariables : Creations := ∅
  labels : Creations := ∅
  references : References := ∅
  flowEvents : List FlowEvent := []
  achievementReferences : References := ∅
  scopes : VariableScopes := {}
  errors : List Diagnostic := []
  deriving DecidableEq

instance : EmptyCollection DocumentIndex := ⟨{}⟩

/-- What the reports of a document amount to. The scopes of special variables run from where they
open to the end of the document. -/
structure Summary where
  globalVariables : Creations := ∅
  localVariables : Creations := ∅
  labels : Creations := ∅
  references : References := ∅
  flowEvents : List FlowEvent := []
  scenes : List String := []
  achievements : Creations := ∅
  achievementReferences : References := ∅
  achievementScopes : List Position := []
  paramScopes : List Position := []
  errors : List Diagnostic := []

namespace Summary

def addSymbol (summary : Summary) (isStartup : Bool) (role : SymbolRole) (name : String)
    (location : Location) : Summary :=
  let addLocal :=
    { summary with localVariables := summary.localVariables.insertNew name location }
  match role with
  | .globalVariable =>
    if isStartup then
      { summary with globalVariables := summary.globalVariables.insertNew name location }
    else addLocal
  | .localVariable => addLocal
  | .label => { summary with labels := summary.labels.insertNew name location }
  | .reference => { summary with references := summary.references.push name location }
  | .achievement =>
    { summary with achievements := summary.achievements.insertNew name location }
  | .achieve =>
    { summary with achievementReferences := summary.achievementReferences.push name location }

/-- Take in a command, which may open a scope. -/
def addCommand (summary : Summary) (name : String) (location : Location) : Summary :=
  match name with
  | "check_achievements" =>
    { summary with achievementScopes := summary.achievementScopes ++ [location.range.start] }
  | "params" => { summary with paramScopes := summary.paramScopes ++ [location.range.start] }
  | _ => summary

def add (isStartup : Bool) (summary : Summary) (report : Report) : Summary :=
  match report with
  | .error diagnostic => { summary with errors := summary.errors ++ [diagnostic] }
  | .event (.command _ name _ _ location) _ => summary.addCommand name location
  | .event (.symbol role name location) _ => summary.addSymbol isStartup role name location
  | .event (.flow event) _ => { summary with flowEvents := summary.flowEvents ++ [event] }
  | .event (.scenes names _) _ => { summary with scenes := summary.scenes ++ names }

def ofReports (isStartup : Bool) (reports : List Report) : Summary :=
  reports.foldl (add isStartup) {}

/-- The index of the document that is summed up. -/
def documentIndex (summary : Summary) (document : Document) : Except Fault DocumentIndex := do
  let toEnd (start : Position) := Range.between start document.endPosition
  return {
    localVariables := summary.localVariables
    labels := summary.labels
    references := summary.references
    flowEvents := summary.flowEvents
    achievementReferences := summary.achievementReferences
    scopes := {
      achievement := ← summary.achievementScopes.mapM toEnd
      param := ← summary.paramScopes.mapM toEnd }
    errors := summary.errors }

end Summary

end ChoiceScript
