import ChoiceScript.Document.Basic

/-! # Diagnostics

A diagnostic says what is wrong in which range of a document. Lists of them are shown by start, by
end, by code and by message, and those equal in all four keep their order.

A notice is what the catalogue knows of a kind of diagnostic. Its message is a template: text with
named places that are filled in when the diagnostic is made.
-/

namespace ChoiceScript

/-- How grave a diagnostic is. -/
inductive Severity where
  | error
  | warning
  | information
  deriving DecidableEq, Repr

def Severity.name : Severity → String
  | error => "error"
  | warning => "warning"
  | information => "information"

/-- Something wrong in a range of a document. -/
structure Diagnostic where
  code : String
  message : String
  range : Range
  severity : Severity := .error
  hint : Option String := none
  category : Option String := none
  deriving DecidableEq, Repr

namespace Diagnostic

def order (a b : Diagnostic) : Ordering :=
  (compare a.range.start b.range.start).then <| (compare a.range.stop b.range.stop).then <|
    (compare a.code b.code).then (compare a.message b.message)

/-- Put a diagnostic into an ordered list, before those equal to it. -/
def insert (diagnostic : Diagnostic) : List Diagnostic → List Diagnostic
  | [] => [diagnostic]
  | first :: rest =>
    if (order diagnostic first).isLE then diagnostic :: first :: rest
    else first :: insert diagnostic rest

def sort (diagnostics : List Diagnostic) : List Diagnostic := diagnostics.foldr insert []

def anyError (diagnostics : List Diagnostic) : Bool := diagnostics.any (·.severity = .error)

end Diagnostic

/-- A piece of a message: text, or the place of a field. -/
inductive Segment where
  | text (text : String)
  | field (name : String)
  deriving DecidableEq, Repr

instance : Coe String Segment := ⟨.text⟩

abbrev Template := List Segment

abbrev Fields := List (String × String)

namespace Template

/-- How a template is written, with the names of its fields in braces. -/
def source (template : Template) : String :=
  String.join <| template.map fun
    | .text text => text
    | .field name => "\x7b" ++ name ++ "\x7d"

/-- Fill in the fields from left to right. Text with a closing brace is refused, for braces mark
fields. -/
def fill (template : Template) (fields : Fields) : Except Fault String :=
  String.join <$> template.mapM fun
    | .text text => if text.toList.contains '\x7d' then .error .loneBrace else .ok text
    | .field name =>
      match fields.lookup name with
      | some value => .ok value
      | none => .error (.missingField name)

/-- The message for given fields. Without any it is the template as it is written. -/
def render (template : Template) (fields : Fields) : Except Fault String :=
  if fields.isEmpty then .ok template.source else template.fill fields

end Template

/-- A kind of diagnostic. -/
structure Notice where
  code : String
  message : Template
  hint : Option String := none
  severity : Severity := .error
  category : String
  deriving DecidableEq, Repr

namespace Notice

def onRange (notice : Notice) (range : Range) (fields : Fields) : Except Fault Diagnostic :=
  return {
    code := notice.code
    message := ← notice.message.render fields
    range
    severity := notice.severity
    hint := notice.hint
    category := some notice.category }

/-- The diagnostic of this kind between two offsets of a document. -/
def between (notice : Notice) (document : Document) (start stop : Int) (fields : Fields) :
    Except Fault Diagnostic := do
  notice.onRange (← document.rangeAt start stop) fields

end Notice

end ChoiceScript
