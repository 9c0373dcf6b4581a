import ChoiceScript.Index.Project

/-! # Rules

A rule looks at one document in its project and finds diagnostics. What a rule says of itself is
free text, so that rules from elsewhere can be refused by name.
-/

namespace ChoiceScript

/-- A document to be checked, its project, and where the variables of its subroutines count as
created. -/
structure Inspection where
  document : Document
  index : ProjectIndex
  subroutineCreations : Creations

namespace Inspection

def of (document : Document) (index : ProjectIndex) : Inspection :=
  ⟨document, index, index.effectiveCreations document.uri⟩

def documentIndex (inspection : Inspection) : DocumentIndex :=
  inspection.index.document inspection.document.uri

/-- Where a variable was created: in a subroutine, else in the file, else for the project. -/
def creation? (inspection : Inspection) (name : String) : Option Location :=
  (inspection.subroutineCreations.get? name)
    |>.or (inspection.documentIndex.localVariables.get? name)
    |>.or (inspection.index.globalVariables.get? name)

end Inspection

/-- A way to find diagnostics. -/
structure Rule where
  code : String
  name : String
  category : String
  domain : String
  confidence : String
  run : Inspection → Except Fault (List Diagnostic)

namespace Rule

def domains : List String := ["semantic", "style"]

def confidences : List String := ["policy", "heuristic"]

/-- Refuse a rule that says of itself what cannot be. Its domain is looked at first, then category,
confidence and code. -/
def validate (rule : Rule) : Except Fault Unit :=
  if !domains.contains rule.domain then .error (.invalidDomain rule.name rule.domain)
  else if !domains.contains rule.category then .error (.invalidCategory rule.name rule.category)
  else if !confidences.contains rule.confidence then
    .error (.invalidConfidence rule.name rule.confidence)
  else if !"VALIDATE_".toList.isPrefixOf rule.code.toList then
    .error (.invalidCode rule.name rule.code)
  else .ok ()

end Rule

end ChoiceScript
