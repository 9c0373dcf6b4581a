import ChoiceScript.CommandLine
import ChoiceScript.Expression.Shape
import ChoiceScript.Parser.Inline
import ChoiceScript.SceneList
import ChoiceScript.StatChart

/-! # Commands

What a command line says, by the kind of its command. The offsets of lines are those of the
document; a line starts after the padding that parts it from the name of its command.
-/

namespace ChoiceScript

namespace Parser

/-- Report what is wrong with the shape of an expression. -/
def shapeErrors (expression : Expression) (errors : List ShapeError) : Parser Unit :=
  errors.forM fun error =>
    complain error.notice (expression.globalIndex + error.start)
      (expression.globalIndex + error.stop) []

/-- Report what keeps an expression from being the value of a variable. -/
def checkValue (expression : Expression) : Parser Unit :=
  shapeErrors expression (Shape.valueErrors expression.combined)

/-- Report what keeps an expression from being a condition. -/
def checkCondition (expression : Expression) : Parser Unit :=
  shapeErrors expression (Shape.conditionErrors expression.combined)

def value (text : Text) (index : Int) : Parser Unit := do
  checkValue (← expression text index)

def params (line : Text) (lineIndex : Int) : Parser Unit :=
  (Text.wordsFrom 0 line).forM fun word =>
    emitSymbol .localVariable word.text (lineIndex + word.start)

/-- Read the target of `*set`, which is the first token of its line. -/
def target (expression : Expression) (first : Token) : Parser Unit := do
  let start := expression.globalIndex + first.start
  let only := expression.slice 0 (some 1)
  if first.kind = .variableName || first.kind = .reference then lexedExpression only
  else
    complain .notAVariable start (start + first.text.length) []
    lexErrors only

def set (line : Text) (lineIndex : Int) : Parser Unit :=
  let expression := Expression.ofText line lineIndex
  match expression.tokens with
  | [] => complain .missingVariableName lineIndex lineIndex []
  | first :: _ => do
    target expression first
    let value := expression.slice 1 none
    if value.tokens = [] then
      complain .missingValue (lineIndex + first.stop) (lineIndex + first.stop) []
    else
      lexedExpression value
      checkValue value

/-- Read the value that follows a name, if there is one. -/
def valueAfter (value? : Option (Nat × Text)) (stop : Int) : Parser Unit :=
  match value? with
  | some (spacing, text) => value text (stop + spacing)
  | none => pure ()

/-- Read what follows the name in a command that creates or changes a variable or label. -/
def symbolUse (command : String) (symbol : Text) (value? : Option (Nat × Text))
    (lineIndex : Int) : Parser Unit :=
  let symbolStop := lineIndex + symbol.length
  match command with
  | "create" => do
    emitSymbol .globalVariable symbol lineIndex
    if value?.isNone then complain .missingValue symbolStop symbolStop []
    valueAfter value? symbolStop
  | "temp" => do
    emitSymbol .localVariable symbol lineIndex
    valueAfter value? symbolStop
  | "label" => emitSymbol .label symbol lineIndex
  | "delete" | "rand" | "input_text" | "input_number" => emitSymbol .reference symbol lineIndex
  | _ => lift (.error (.unexpectedCommand command))

/-- Read a command that creates or changes a variable or label. -/
def symbolCommand (command : String) (line : Text) (lineIndex : Int) : Parser Unit :=
  if command = "params" then params line lineIndex
  else if command = "set" then set line lineIndex
  else
    let isLabel := command = "label"
    match line.takeWhile (if isLabel then Text.isLabel else Text.isWord) with
    | [] =>
      let wrong := line.takeWhile (!Text.isBlank ·)
      complain .invalidSymbol lineIndex (lineIndex + wrong.length)
        [("kind", if isLabel then "label" else "variable")]
    | symbol =>
      let value? := if isLabel then none else Text.valueAfter? (line.drop symbol.length)
      symbolUse command symbol value? lineIndex

/-- Read a condition. The one of `*if` and `*selectable_if` ends where an option begins. -/
def condition (command : String) (line : Text) (lineIndex : Int) : Parser Unit := do
  let line :=
    if command = "if" || command = "selectable_if" then line.takeWhile (· ≠ '#') else line
  checkCondition (← expression line lineIndex)

def computedTarget (target : Text) (index : Int) : Parser Unit :=
  if target.head? = some '{' then discard (expression target.inside (index + 1)) else pure ()

/-- Read a jump with its one or two targets. -/
def jump (command : String) (commandIndex : Int) (line : Text) (lineIndex : Int) :
    Parser Unit := do
  let commandLocation ← locate commandIndex (commandIndex + command.length)
  let (⟨first, _⟩, ⟨second, skipped⟩) := Text.jumpTargets line
  let secondIndex := lineIndex + skipped
  computedTarget first lineIndex
  computedTarget second secondIndex
  let firstLocation ← locate lineIndex (lineIndex + first.length)
  if command.toList.drop (command.length - 6) = "_scene".toList then
    let label? ←
      if second = [] then pure none
      else some <$> locate secondIndex (secondIndex + second.length)
    emit (.flow {
      command, commandLocation
      label := String.ofList second, scene := String.ofList first
      labelLocation := label?, sceneLocation := some firstLocation })
  else
    emit (.flow {
      command, commandLocation
      label := String.ofList first, labelLocation := some firstLocation })

def flow (command : String) (commandIndex : Int) (line : Text) (lineIndex : Int) :
    Parser Unit := do
  if command = "return" then
    let commandLocation ← locate commandIndex (commandIndex + command.length)
    emit (.flow { command, commandLocation })
  else jump command commandIndex line lineIndex

/-- Read the list of scenes on the lines from an offset on. -/
def sceneList (start : Nat) : Parser Unit := do
  let entries := (← document).text.sceneNames start
  match entries.getLast? with
  | none => pure ()
  | some (_, stop) =>
    let location ← locate start stop
    emit (.scenes (entries.map fun entry => String.ofList entry.1) location)

/-- Read the variable of a stat line, which stands at an offset of the document. -/
def statVariable (index : Nat) : Parser Unit := do
  let pairs := [('{', '}'), ('(', ')'), ('"', '"')]
  match Text.tokenAt pairs Text.isWord (← document).text index with
  | none => complain .statChartInvalidVariable index index []
  | some variable_ =>
    match variable_.head? with
    | some '(' | some '"' => complain .statChartInvalidVariable index index []
    | some '{' => discard (expression variable_.inside (index + 1))
    | _ => emitSymbol .reference variable_ index

def statLine (start : Nat) (line : StatLine) : Parser Unit :=
  let wordStart := start + line.padding.length
  let wordStop := wordStart + line.word.length
  if Vocabulary.statChartCommands.contains line.command then
    if line.isBare then
      complain .statChartMissingVariable wordStart wordStop [("command", line.command)]
    else statVariable (wordStop + line.spacing.length)
  else
    complain .statChartUnknownCommand wordStart wordStop
      [("commands", ", ".intercalate Vocabulary.statChartCommands)]

/-- Read the stat chart on the lines from an offset on. -/
def statChart (commandIndex : Int) (start : Nat) : Parser Unit := do
  let chart := StatChart.read (← document).text start
  chart.lines.forM fun (start, line) => statLine start line
  match chart.misindented with
  | some (first, stop) => complain .statChartIndent first stop []
  | none => pure ()
  if chart.lines = [] then
    complain .statChartEmpty (commandIndex - 1) (commandIndex + "stat_chart".length) []

def achievement (role : SymbolRole) (line : Text) (lineIndex : Int) : Parser Unit :=
  match line.takeWhile (!Text.isBlank ·) with
  | [] => pure ()
  | codename => emitSymbol role codename lineIndex

/-- Read what stands on the lines below a command, if there are any. -/
def below (commandIndex : Int) (read : Nat → Parser Unit) : Parser Unit := do
  match (← document).text.lineEnd? commandIndex.toNat with
  | some start => read start
  | none => pure ()

/-- Read what follows the name of a command, by its kind. -/
def arguments (command : String) (line : Text) (commandIndex lineIndex : Int) : Parser Unit :=
  if Vocabulary.symbolCommands.contains command then symbolCommand command line lineIndex
  else if Vocabulary.conditionCommands.contains command then condition command line lineIndex
  else if Vocabulary.flowCommands.contains command then flow command commandIndex line lineIndex
  else match command with
  | "scene_list" => below commandIndex sceneList
  | "stat_chart" => below commandIndex (statChart commandIndex)
  | "achievement" => achievement .achievement line lineIndex
  | "achieve" => achievement .achieve line lineIndex
  | _ => pure ()

/-- Read a command line. Its name stands at an offset of the document. -/
def command (padding : Text) (name : String) (spacing line : Text) (index : Int) :
    Parser Unit :=
  duringCommand name do
    let stop := index + name.length
    emit (.command padding name spacing line (← locate index stop))
    if !Vocabulary.commands.contains name then
      complain .invalidCommand index stop [("command", name)]
    else if Vocabulary.argumentCommands.contains name && Text.blank line then
      complain .missingArguments index stop [("command", name)]
    else
      if Vocabulary.startupCommands.contains name then
        if !(← isStartup) then complain .startupOnlyCommand index stop [("command", name)]
      arguments name line index (stop + spacing.length)

end Parser

end ChoiceScript
