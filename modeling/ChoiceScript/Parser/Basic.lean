import ChoiceScript.Diagnostic.Basic
import ChoiceScript.Event
import ChoiceScript.Uri.Basic
import ChoiceScript.Vocabulary

/-! # Parsers

A parser reads something of one document. It keeps track of the constructs it is in, reports what it
finds, and may fail; what was reported before stays reported. Constructs are entered by `within`
and `duringCommand` only, which leave them again in every case.
-/

namespace ChoiceScript

/-- What a parser reads, and the name of the startup file. -/
structure Source where
  document : Document
  startupFile : String := Vocabulary.startupFile

/-- How far a parser has come: where it is and what it has reported so far, oldest first. -/
structure Progress where
  command : Option String := none
  stack : List Element := []
  reports : List Report := []
  deriving DecidableEq

/-- An action that reads a source, makes progress, and gives a value or fails. -/
def Parser (α : Type) : Type := Source → Progress → Except Fault α × Progress

namespace Parser

instance : Monad Parser where
  pure a := fun _ progress => (.ok a, progress)
  bind first next := fun source progress =>
    match first source progress with
    | (.ok a, after) => next a source after
    | (.error fault, after) => (.error fault, after)

def lift (outcome : Except Fault α) : Parser α := fun _ progress => (outcome, progress)

def document : Parser Document := fun source progress => (.ok source.document, progress)

def isStartup : Parser Bool := fun source progress =>
  (Uri.isStartup source.startupFile source.document.uri, progress)

/-- Is the parser inside a construct of the given kind? -/
def isInside (element : Element) : Parser Bool := fun _ progress =>
  (.ok (progress.stack.contains element), progress)

def report (report : Report) : Parser Unit := fun _ progress =>
  (.ok (), { progress with reports := progress.reports ++ [report] })

def emit (event : Event) : Parser Unit := fun source progress =>
  report (.event event ⟨progress.command, progress.stack⟩) source progress

def locate (start stop : Int) : Parser Location := fun source progress =>
  (source.document.locationAt start stop, progress)

/-- Report an error between two offsets of the document. -/
def complain (notice : Notice) (start stop : Int) (fields : Fields) : Parser Unit :=
  fun source progress =>
    match notice.between source.document start stop fields with
    | .ok diagnostic => report (.error diagnostic) source progress
    | .error fault => (.error fault, progress)

/-- Report a name in a role, which stands at an offset of the document. -/
def emitSymbol (role : SymbolRole) (name : Text) (index : Int) : Parser Unit := do
  let location ← locate index (index + name.length)
  emit (.symbol role (String.ofList name) location)

/-- Enter a construct, and leave it when done or failed. -/
def within (element : Element) (body : Parser α) : Parser α := fun source progress =>
  let (outcome, after) := body source { progress with stack := element :: progress.stack }
  (outcome, { after with stack := after.stack.tail })

/-- Enter a command, and leave it when done or failed. -/
def duringCommand (name : String) (body : Parser α) : Parser α := fun source progress =>
  let (outcome, after) := within .command body source { progress with command := some name }
  (outcome, { after with command := none })

def discard (first : Parser α) : Parser Unit := do
  let _ ← first

/-- What a parser reports of a source from the start, and its outcome. -/
def run (parser : Parser α) (source : Source) : Except Fault α × Progress := parser source {}

end Parser

end ChoiceScript
