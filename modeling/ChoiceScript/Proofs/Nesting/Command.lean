import ChoiceScript.Parser.Command
import ChoiceScript.Proofs.Expression.Shape
import ChoiceScript.Proofs.Nesting.Inline
import ChoiceScript.Proofs.Text.Pieces

/-! # Commands keep to their lines

Everything that a command says by itself stands in the command alone. Only references stand in
constructs on its line or below it, since all else is read between them.
-/

namespace ChoiceScript

namespace Shape

/-- All of the errors are found in reading. -/
def OfReading (errors : List ShapeError) : Prop := ∀ error ∈ errors, error.notice.OfReading

theorem Known.ofReading {errors : List ShapeError} (known : Known errors) : OfReading errors := by
  have reading : ∀ notice ∈ notices, notice.OfReading := by decide +kernel
  exact fun error member => reading error.notice (known error member)

end Shape

namespace Parser

variable {source : Source} {allowed : Event → Prop} {context : Context} {line : Text} {lineIndex : Int}

theorem nests_shapeErrors {expression : Expression} {errors : List ShapeError}
    (reading : Shape.OfReading errors) : Nests source allowed context (shapeErrors expression errors) :=
  .forM fun error member => .complain (reading error member)

theorem nests_checkValue {expression : Expression} :
    Nests source allowed context (checkValue expression) :=
  nests_shapeErrors (Shape.known_valueErrors _).ofReading

theorem nests_checkCondition {expression : Expression} :
    Nests source allowed context (checkCondition expression) :=
  nests_shapeErrors (Shape.known_conditionErrors _).ofReading

/-- What is read in an expression refers to variables. -/
theorem nests_aside {text : Text} {index : Int} :
    Nests source Event.IsAside context (expression text index) :=
  (nests_expression text index).allowing fun _ held => held.isAside

theorem nests_value {text : Text} {index : Int} :
    Nests source Event.IsAside context (value text index) :=
  nests_aside.bind fun _ => nests_checkValue

theorem nests_condition {command : String} :
    Nests source Event.IsAside context (condition command line lineIndex) :=
  nests_aside.bind fun _ => nests_checkCondition

theorem nests_params : Nests source Event.IsAside context (params line lineIndex) :=
  .forM fun _ _ => Nests.emitSymbol fun _ => trivial

section Set

variable {expression : Expression} (words : ∀ token ∈ expression.tokens,
  token.kind = .variableName → ∀ c ∈ token.text, Text.isWord c = true)

include words

theorem nests_slice {start : Nat} {stop : Option Nat} :
    Nests source Event.IsAside context (lexedExpression (expression.slice start stop)) := by
  have slice : Nests source Event.RefersByWord context
      (lexedExpression (expression.slice start stop)) := by
    apply nests_lexedExpression (fun _ held => held.1) fun _ held => held
    intro token member kind location
    refine ⟨trivial, ?_⟩
    simpa [Event.Named] using words token (Expression.mem_of_mem_slice member) kind
  exact slice.allowing fun _ held => held.isAside

theorem nests_target {first : Token} : Nests source Event.IsAside context (target expression first) := by
  unfold target
  dsimp only
  split
  · exact nests_slice words
  · exact Tells.bind (.complain (by decide)) fun _ => nests_lexErrors

end Set

theorem nests_set : Nests source Event.IsAside context (set line lineIndex) := by
  have words : ∀ token ∈ (Expression.ofText line lineIndex).tokens, token.kind = .variableName →
      ∀ c ∈ token.text, Text.isWord c = true :=
    fun token member => (Expression.standsIn_of_mem_tokens member).word
  unfold set
  dsimp only
  split
  · exact .complain (by decide)
  · apply (nests_target words).bind
    intro _
    split
    · exact .complain (by decide)
    · exact (nests_slice words).bind fun _ => nests_checkValue

theorem nests_valueAfter {value? : Option (Nat × Text)} {stop : Int} :
    Nests source Event.IsAside context (valueAfter value? stop) := by
  cases value? with
  | none => exact .pure
  | some value => exact nests_value

/-- A command that is not for labels uses words. -/
theorem nests_symbolUse {command : String} {symbol : Text} {value? : Option (Nat × Text)}
    (noLabel : command ≠ "label") (word : ∀ c ∈ symbol, Text.isWord c = true) :
    Nests source Event.IsAside context (symbolUse command symbol value? lineIndex) := by
  have reference : Nests source Event.IsAside context (emitSymbol .reference symbol lineIndex) :=
    Nests.emitSymbol fun _ => by simpa [Event.IsAside, Event.IsDetail, Event.Named] using word
  unfold symbolUse
  dsimp only
  split
  · apply Tells.bind (Nests.emitSymbol fun _ => trivial)
    intro _
    split
    · exact Tells.bind (.complain (by decide)) fun _ => nests_valueAfter
    · exact nests_valueAfter
  · exact Tells.bind (Nests.emitSymbol fun _ => trivial) fun _ => nests_valueAfter
  · exact absurd rfl noLabel
  · exact reference
  · exact reference
  · exact reference
  · exact reference
  · exact .fail

theorem nests_wordCommand {command : String} (noLabel : command ≠ "label") :
    Nests source Event.IsAside context (symbolCommand command line lineIndex) := by
  unfold symbolCommand
  split
  · exact nests_params
  split
  · exact nests_set
  dsimp only
  split
  · exact .complain (by decide)
  · apply nests_symbolUse noLabel
    intro c member
    rw [if_neg noLabel] at member
    exact List.all_eq_true.1 List.all_takeWhile c member

/-- A label is all that its command is for. -/
theorem symbolCommand_label : symbolCommand "label" line lineIndex =
    if line.takeWhile Text.isLabel = [] then
      complain .invalidSymbol lineIndex (lineIndex + (line.takeWhile (!Text.isBlank ·)).length)
        [("kind", "label")]
    else emitSymbol .label (line.takeWhile Text.isLabel) lineIndex := by
  unfold symbolCommand
  rw [if_neg (by decide), if_neg (by decide)]
  simp only [if_true]
  cases line.takeWhile Text.isLabel with
  | nil => rfl
  | cons => rfl

theorem nests_symbolCommand {command : String} :
    Nests source Event.IsDetail context (symbolCommand command line lineIndex) := by
  by_cases label : command = "label"
  · rw [label, symbolCommand_label]
    split
    · exact .complain (by decide)
    · exact Nests.emitSymbol fun _ => trivial
  · exact (nests_wordCommand label).allowing fun _ held => held.isDetail

theorem nests_computedTarget {target : Text} {index : Int} :
    Nests source Event.IsAside context (computedTarget target index) := by
  unfold computedTarget
  split
  · exact nests_aside.discard
  · exact .pure

theorem nests_jump {command : String} {commandIndex : Int} :
    Nests source Event.IsDetail context (jump command commandIndex line lineIndex) := by
  have computed : ∀ target index, Nests source Event.IsDetail context (computedTarget target index) :=
    fun _ _ => nests_computedTarget.allowing fun _ held => held.isDetail
  unfold jump
  generalize Text.jumpTargets line = targets
  obtain ⟨⟨first, start⟩, ⟨second, skipped⟩⟩ := targets
  apply Tells.locate.bind
  intro commandLocation
  apply (computed _ _).bind
  intro _
  apply (computed _ _).bind
  intro _
  apply Tells.locate.bind
  intro firstLocation
  split
  · split
    · exact Tells.pure.bind fun _ => Nests.emit trivial
    · exact Tells.locate.map.bind fun _ => Nests.emit trivial
  · exact Nests.emit trivial

theorem nests_flow {command : String} {commandIndex : Int} :
    Nests source Event.IsDetail context (flow command commandIndex line lineIndex) := by
  unfold flow
  split
  · exact Tells.locate.bind fun _ => Nests.emit trivial
  · exact nests_jump

theorem nests_sceneList {start : Nat} : Nests source Event.IsAside context (sceneList start) := by
  apply Tells.readDocument fun _ => rfl
  dsimp only
  split
  · exact .pure
  · exact Tells.locate.bind fun _ => Nests.emit trivial

/-- A stat variable that is no group is a word. -/
theorem nests_statVariable {index : Nat} : Nests source Event.IsAside context (statVariable index) := by
  apply Tells.readDocument fun _ => rfl
  split
  · exact .complain (by decide)
  · rename_i name found
    split
    · exact .complain (by decide)
    · exact .complain (by decide)
    · exact nests_aside.discard
    · rename_i noGroup noQuote noBrace
      apply Nests.emitSymbol
      intro _
      have word : ∀ c ∈ name, Text.isWord c = true := by
        apply (Text.tokenAt_head found).resolve_left
        simp_all
      simpa [Event.IsAside, Event.IsDetail, Event.Named] using word

theorem nests_statLine {start : Nat} {line : StatLine} :
    Nests source Event.IsAside context (statLine start line) := by
  unfold statLine
  dsimp only
  split
  · split
    · exact .complain (by decide)
    · exact nests_statVariable
  · exact .complain (by decide)

theorem nests_statChart {commandIndex : Int} {start : Nat} :
    Nests source Event.IsAside context (statChart commandIndex start) := by
  apply Tells.readDocument fun _ => rfl
  apply Tells.bind (.forM fun _ _ => nests_statLine)
  intro _
  have empty : ∀ lines : List (Nat × StatLine), Nests source Event.IsAside context (if lines = [] then
      complain .statChartEmpty (commandIndex - 1) (commandIndex + "stat_chart".length) []
      else pure ()) := by
    intro lines
    split
    · exact .complain (by decide)
    · exact .pure
  dsimp only
  split
  · exact Tells.bind (.complain (by decide)) fun _ => empty _
  · exact empty _

/-- An achievement has a name. -/
theorem nests_achievement {role : SymbolRole} (other : role ≠ .reference) (noLabel : role ≠ .label) :
    Nests source Event.IsAside context (achievement role line lineIndex) := by
  unfold achievement
  split
  · exact .pure
  · rename_i nonempty
    apply Nests.emitSymbol
    intro location
    cases role with
    | reference => exact absurd rfl other
    | label => exact absurd rfl noLabel
    | achievement =>
        intro empty
        exact nonempty (by simpa using congrArg String.toList empty)
    | _ => trivial

theorem nests_below {commandIndex : Int} {read : Nat → Parser Unit}
    (nests : ∀ start, Nests source allowed context (read start)) :
    Nests source allowed context (below commandIndex read) := by
  apply Tells.readDocument fun _ => rfl
  split
  · exact nests _
  · exact .pure

theorem arguments_label {commandIndex : Int} :
    arguments "label" line commandIndex lineIndex = symbolCommand "label" line lineIndex := rfl

theorem arguments_flow {command : String} {commandIndex : Int} (jumps : command ∈ Vocabulary.flowCommands) :
    arguments command line commandIndex lineIndex = flow command commandIndex line lineIndex := by
  have alone : ∀ name ∈ Vocabulary.flowCommands, name ∉ Vocabulary.symbolCommands ∧
      name ∉ Vocabulary.conditionCommands := by decide
  obtain ⟨noSymbol, noCondition⟩ := alone command jumps
  simp only [arguments, List.contains_iff_mem, noSymbol, noCondition, jumps, if_true, if_false]

/-- Labels and jumps come from their own commands only. -/
theorem nests_asideArguments {command : String} {commandIndex : Int} (noLabel : command ≠ "label")
    (noJump : command ∉ Vocabulary.flowCommands) :
    Nests source Event.IsAside context (arguments command line commandIndex lineIndex) := by
  unfold arguments
  split
  · exact nests_wordCommand noLabel
  split
  · exact nests_condition
  rw [if_neg (by simpa using noJump)]
  split
  · exact nests_below fun _ => nests_sceneList
  · exact nests_below fun _ => nests_statChart
  · exact nests_achievement (by simp) (by simp)
  · exact nests_achievement (by simp) (by simp)
  · exact .pure

theorem nests_arguments {command : String} {commandIndex : Int} :
    Nests source Event.IsDetail context (arguments command line commandIndex lineIndex) := by
  by_cases label : command = "label"
  · rw [label, arguments_label]
    exact nests_symbolCommand
  by_cases jumps : command ∈ Vocabulary.flowCommands
  · rw [arguments_flow jumps]
    exact nests_flow
  · exact (nests_asideArguments label jumps).allowing fun _ held => held.isDetail

end Parser

end ChoiceScript
