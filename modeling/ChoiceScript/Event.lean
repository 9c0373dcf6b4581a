import ChoiceScript.Diagnostic.Basic
import ChoiceScript.Text.Basic

/-! # Events

Reading a document gives a list of reports in document order: events, each with the constructs it
stands in, and errors.
-/

namespace ChoiceScript

/-- A construct that is being read. Replacements count as variable references. -/
inductive Element where
  | command
  | variableReference
  | parentheses
  | multireplacement
  deriving DecidableEq, Repr

def Element.name : Element → String
  | command => "command"
  | variableReference => "variable_reference"
  | parentheses => "parentheses"
  | multireplacement => "multireplacement"

/-- What a name does where it stands: `reference` refers to a variable and `achieve` to an
achievement, and the others create what they name. -/
inductive SymbolRole where
  | globalVariable
  | localVariable
  | label
  | reference
  | achievement
  | achieve
  deriving DecidableEq, Repr

/-- A jump or a return. A label or scene that is not given is empty and has no location. -/
structure FlowEvent where
  command : String
  commandLocation : Location
  label : String := ""
  scene : String := ""
  labelLocation : Option Location := none
  sceneLocation : Option Location := none
  deriving DecidableEq, Repr

/-- Something a document says. -/
inductive Event where
  /-- Something that looks like a command, with its padding, its name, what parts the name from the
  rest of the line, and that rest. The location is that of the name. -/
  | command (padding : Text) (name : String) (spacing line : Text) (location : Location)
  | symbol (role : SymbolRole) (name : String) (location : Location)
  | flow (event : FlowEvent)
  | scenes (names : List String) (location : Location)
  deriving DecidableEq, Repr

/-- The command being read, if any, and the constructs being read, innermost first. -/
structure Context where
  command : Option String
  stack : List Element
  deriving DecidableEq, Repr

/-- What reading a document reports. -/
inductive Report where
  | event (event : Event) (context : Context)
  | error (diagnostic : Diagnostic)
  deriving DecidableEq, Repr

end ChoiceScript
