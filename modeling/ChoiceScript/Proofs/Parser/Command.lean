import ChoiceScript.Parser.Command
import ChoiceScript.Proofs.Expression.Shape
import ChoiceScript.Proofs.Parser.Inline

/-! # Commands are read truthfully

The rest of a command line is a copy of what the document has there, and so is every word, target
and name that is cut out of it. A reader that is only fit for some commands is only given these.
-/

namespace ChoiceScript

open Document

namespace Parser

variable {source : Source} {line text : Text} {lineIndex index : Int}

theorem truthful_expression (mirrors : source.document.Mirrors text index) :
    Truthful source (expression text index) :=
  (meets_expression mirrors).mono (fun _ held => held) fun _ _ => trivial

theorem truthful_shapeErrors {expression : Expression} {errors : List ShapeError}
    (fine : Shape.Fine errors) : Truthful source (shapeErrors expression errors) := by
  refine .forM fun error member => ?_
  have le := fine error member
  exact Truthful.complain (by omega) rfl

theorem truthful_checkValue {expression : Expression} (ordered : expression.Ordered) :
    Truthful source (checkValue expression) :=
  truthful_shapeErrors (Shape.fine_valueErrors (Token.combine_inOrder ordered.tokens))

theorem truthful_checkCondition {expression : Expression} (ordered : expression.Ordered) :
    Truthful source (checkCondition expression) :=
  truthful_shapeErrors (Shape.fine_conditionErrors (Token.combine_inOrder ordered.tokens))

theorem truthful_value (mirrors : source.document.Mirrors text index) :
    Truthful source (value text index) := by
  apply Meets.bind (meets_expression mirrors)
  intro read same
  subst same
  exact truthful_checkValue (Expression.ofText_ordered text index)

theorem truthful_condition {command : String} (copies : source.document.Copies line lineIndex) :
    Truthful source (condition command line lineIndex) := by
  unfold condition
  dsimp only
  refine Meets.bind (meets_expression ?_) fun read same => ?_
  · split
    · exact (copies.head (List.takeWhile_prefix _)).mirrors
    · exact copies.mirrors
  · subst same
    exact truthful_checkCondition (Expression.ofText_ordered _ lineIndex)

theorem truthful_params (copies : source.document.Copies line lineIndex) :
    Truthful source (params line lineIndex) := by
  refine .forM fun word member => Truthful.emitSymbol ?_
  exact copies.piece (Text.standsIn_of_mem_wordsFrom member).part (by omega)

section Set

variable {expression : Expression} (ordered : expression.Ordered)
  (mirrors : source.document.Mirrors text expression.globalIndex)
  (stands : ∀ token ∈ expression.tokens, token.StandsIn text 0)

include ordered mirrors stands

theorem truthful_slice (start : Nat) (stop : Option Nat) :
    Truthful source (lexedExpression (expression.slice start stop)) :=
  truthful_lexedExpression (ordered.slice start stop) mirrors
    fun token member => stands token (Expression.mem_of_mem_slice member)

theorem truthful_target (first : Token) : Truthful source (target expression first) := by
  unfold target
  dsimp only
  split
  · exact truthful_slice ordered mirrors stands 0 (some 1)
  · exact Truthful.bind (.complain (by omega) rfl) fun _ =>
      truthful_lexErrors (ordered.slice 0 (some 1))

end Set

theorem truthful_set (mirrors : source.document.Mirrors line lineIndex) :
    Truthful source (set line lineIndex) := by
  have ordered := Expression.ofText_ordered line lineIndex
  have stands : ∀ token ∈ (Expression.ofText line lineIndex).tokens, token.StandsIn line 0 :=
    fun token => Expression.standsIn_of_mem_tokens
  unfold set
  dsimp only
  split
  · exact .complain (by omega) rfl
  · apply (truthful_target ordered mirrors stands _).bind
    intro _
    split
    · exact .complain (by omega) rfl
    · exact (truthful_slice ordered mirrors stands 1 none).bind fun _ =>
        truthful_checkValue (ordered.slice 1 none)

theorem truthful_valueAfter {value? : Option (Nat × Text)}
    (mirrors : ∀ value ∈ value?, source.document.Mirrors value.2 (index + value.1)) :
    Truthful source (valueAfter value? index) := by
  cases value? with
  | none => exact .pure trivial
  | some value => exact truthful_value (mirrors value rfl)

/-- The reader of symbol commands is given no other command. -/
theorem truthful_symbolUse {command : String} {symbol : Text} {value? : Option (Nat × Text)}
    (known : Vocabulary.symbolCommands.contains command = true) (noParams : command ≠ "params")
    (noSet : command ≠ "set") (copies : source.document.Copies symbol lineIndex)
    (mirrors : ∀ value ∈ value?,
      source.document.Mirrors value.2 (lineIndex + symbol.length + value.1)) :
    Truthful source (symbolUse command symbol value? lineIndex) := by
  have value := truthful_valueAfter mirrors
  unfold symbolUse
  dsimp only
  split
  · apply (Truthful.emitSymbol copies).bind
    intro _
    split
    · exact Truthful.bind (.complain (by omega) rfl) fun _ => value
    · exact value
  · exact (Truthful.emitSymbol copies).bind fun _ => value
  · exact .emitSymbol copies
  · exact .emitSymbol copies
  · exact .emitSymbol copies
  · exact .emitSymbol copies
  · exact .emitSymbol copies
  · have either := Vocabulary.creates_or_changes known
    simp_all [Vocabulary.creationCommands, Vocabulary.variableCommands]

theorem truthful_symbolCommand {command : String}
    (known : Vocabulary.symbolCommands.contains command = true)
    (copies : source.document.Copies line lineIndex) :
    Truthful source (symbolCommand command line lineIndex) := by
  unfold symbolCommand
  split
  · exact truthful_params copies
  · split
    · exact truthful_set copies.mirrors
    · rename_i noParams noSet
      dsimp only
      split
      · have fit : Notice.invalidSymbol.message.fits ["kind"] = true := by decide
        exact .complain (by omega) fit
      · refine truthful_symbolUse known noParams noSet
          (copies.head (List.takeWhile_prefix _)) ?_
        rintro ⟨spacing, text⟩ found
        generalize (line.takeWhile _).length = skipped at found ⊢
        split at found
        · simp at found
        · have part := Text.valueAfter?_prefix found
          rw [List.drop_drop] at part
          exact (copies.piece part (by omega)).mirrors

theorem truthful_computedTarget {target : Text} (mirrors : source.document.Mirrors target index) :
    Truthful source (computedTarget target index) := by
  unfold computedTarget
  split
  · exact (truthful_expression (mirrors.piece (Text.inside_prefix target) (by omega))).discard
  · exact .pure trivial

theorem meets_locate {name : Text} (copies : source.document.Copies name index) {stop : Int}
    (same : stop = index + name.length) :
    Meets source (Report.Truthful source.document)
      (fun location => source.document.Quotes location (String.ofList name).toList)
      (locate index stop) := by
  subst same
  rw [String.toList_ofList]
  exact (Meets.locate (by omega)).mono (fun _ held => held) fun _ located => copies.quotes located

section Flow

variable {command : String} {commandIndex : Int}

theorem meets_locateCommand (name : source.document.Copies command.toList commandIndex) :
    Meets source (Report.Truthful source.document)
      (fun location => source.document.Quotes location command.toList)
      (locate commandIndex (commandIndex + command.length)) := by
  have located := meets_locate name rfl
  rwa [String.ofList_toList, String.length_toList] at located

theorem truthful_jump (name : source.document.Copies command.toList commandIndex)
    (copies : source.document.Copies line lineIndex) :
    Truthful source (jump command commandIndex line lineIndex) := by
  have place := Text.jumpTargets_place line
  have target := Text.isTarget_jumpTargets line
  unfold jump
  generalize Text.jumpTargets line = targets at place target ⊢
  obtain ⟨⟨first, start⟩, ⟨second, skipped⟩⟩ := targets
  have firstCopies : source.document.Copies first lineIndex := copies.head place.1
  have secondCopies : source.document.Copies second (lineIndex + skipped) := copies.piece place.2 rfl
  have firstTarget : Text.IsTarget (String.ofList first).toList := by simpa using target.1
  have secondTarget : Text.IsTarget (String.ofList second).toList := by simpa using target.2
  apply Meets.bind (meets_locateCommand name)
  intro commandLocation quoted
  apply Truthful.bind (truthful_computedTarget firstCopies.mirrors)
  intro _
  apply Truthful.bind (truthful_computedTarget secondCopies.mirrors)
  intro _
  apply Meets.bind (meets_locate firstCopies rfl)
  intro firstLocation firstQuoted
  split
  · refine Meets.branch (fun _ => Meets.pure (by simp))
      (fun _ => (meets_locate secondCopies rfl).map fun _ held => by simpa using held)
      fun label? (secondQuoted : ∀ location ∈ label?,
        source.document.Quotes location (String.ofList second).toList) => Meets.emit fun _ => ?_
    exact ⟨quoted, secondQuoted, by simpa using firstQuoted, secondTarget, firstTarget⟩
  · apply Meets.emit
    intro _
    exact ⟨quoted, by simpa using firstQuoted, by simp, firstTarget, Text.isTarget_nil⟩

theorem truthful_flow (name : source.document.Copies command.toList commandIndex)
    (copies : source.document.Copies line lineIndex) :
    Truthful source (flow command commandIndex line lineIndex) := by
  unfold flow
  split
  · apply Meets.bind (meets_locateCommand name)
    intro _ quoted
    apply Meets.emit
    intro _
    exact ⟨quoted, by simp, by simp, Text.isTarget_nil, Text.isTarget_nil⟩
  · exact truthful_jump name copies

end Flow

theorem truthful_sceneList (start : Nat) : Truthful source (sceneList start) := by
  refine Truthful.readDocument ?_
  dsimp only
  split
  · exact .pure trivial
  · rename_i name stop last
    have le := Text.le_of_mem_sceneNames (List.mem_of_getLast? last)
    apply Meets.bind (Meets.locate (by omega))
    intro location located
    apply Meets.emit
    intro _
    exact holds_of_locationAt (by omega) located

theorem truthful_statVariable (place : Nat) : Truthful source (statVariable place) := by
  refine Truthful.readDocument ?_
  split
  · exact .complain (by omega) rfl
  · rename_i name found
    have copies : source.document.Copies name place :=
      source.document.copies_whole.piece (Text.tokenAt_prefix found) (by omega)
    split
    · exact .complain (by omega) rfl
    · exact .complain (by omega) rfl
    · refine (truthful_expression ?_).discard
      exact (copies.piece (Text.inside_prefix name) (by omega)).mirrors
    · exact .emitSymbol copies

theorem truthful_statLine (start : Nat) (line : StatLine) : Truthful source (statLine start line) := by
  unfold statLine
  dsimp only
  split
  · split
    · have fit : Notice.statChartMissingVariable.message.fits ["command"] = true := by decide
      exact .complain (by omega) fit
    · exact truthful_statVariable _
  · have fit : Notice.statChartUnknownCommand.message.fits ["commands"] = true := by decide
    exact .complain (by omega) fit

theorem truthful_statChart (commandIndex : Int) (start : Nat) :
    Truthful source (statChart commandIndex start) := by
  refine Truthful.readDocument ?_
  apply Truthful.bind (.forM fun line _ => truthful_statLine line.1 line.2)
  intro _
  dsimp only
  have empty : ∀ lines : List (Nat × StatLine), Truthful source (if lines = [] then
      complain .statChartEmpty (commandIndex - 1) (commandIndex + "stat_chart".length) []
      else pure ()) := by
    intro lines
    split
    · exact .complain (by omega) rfl
    · exact .pure trivial
  split
  · rename_i first stop misindented
    have le := StatChart.misindented_le misindented
    exact Truthful.bind (.complain (by simpa using le) rfl) fun _ => empty _
  · exact empty _

theorem truthful_achievement {role : SymbolRole} (copies : source.document.Copies line lineIndex) :
    Truthful source (achievement role line lineIndex) := by
  unfold achievement
  split
  · exact .pure trivial
  · exact .emitSymbol (copies.head (List.takeWhile_prefix _))

theorem truthful_below {commandIndex : Int} {read : Nat → Parser Unit}
    (truthful : ∀ start, Truthful source (read start)) :
    Truthful source (below commandIndex read) := by
  refine Truthful.readDocument ?_
  split
  · exact truthful _
  · exact .pure trivial

theorem truthful_arguments {command : String} {commandIndex : Int}
    (name : source.document.Copies command.toList commandIndex)
    (copies : source.document.Copies line lineIndex) :
    Truthful source (arguments command line commandIndex lineIndex) := by
  unfold arguments
  split
  · rename_i known
    exact truthful_symbolCommand known copies
  split
  · exact truthful_condition copies
  split
  · exact truthful_flow name copies
  split
  · exact truthful_below truthful_sceneList
  · exact truthful_below (truthful_statChart commandIndex)
  · exact truthful_achievement copies
  · exact truthful_achievement copies
  · exact .pure trivial

theorem truthful_command {padding spacing : Text} {name : String}
    (nameCopies : source.document.Copies name.toList index)
    (copies : source.document.Copies line (index + name.length + spacing.length)) :
    Truthful source (command padding name spacing line index) := by
  refine Meets.duringCommand ?_
  apply Meets.bind (meets_locateCommand nameCopies)
  intro location quoted
  refine Truthful.bind (Meets.emit fun _ => quoted) fun _ => ?_
  split
  · have fit : Notice.invalidCommand.message.fits ["command"] = true := by decide
    exact .complain (by omega) fit
  split
  · have fit : Notice.missingArguments.message.fits ["command"] = true := by decide
    exact .complain (by omega) fit
  have rest := truthful_arguments nameCopies copies
  split
  · apply Truthful.bind Meets.isStartup
    intro startup
    have fit : Notice.startupOnlyCommand.message.fits ["command"] = true := by decide
    split
    · exact Truthful.bind (.complain (by omega) fit) fun _ => rest
    · exact rest
  · exact rest

end Parser

end ChoiceScript
