import ChoiceScript.Proofs.Expression.Calls
import ChoiceScript.Proofs.Parser.Command

/-! # What the shape checks accept

The checks of values and conditions against the shapes that are allowed, as grammars of combined tokens.
Conditions are accepted just by their grammar. Values are not: after a value that is neither a number nor
a string, what follows the operator is not looked at.
-/

namespace ChoiceScript

namespace Token

theorem isValue_of_isNumberCompatible {token : Token} (number : token.isNumberCompatible = true) :
    token.kind.isValue = true := by
  unfold isNumberCompatible isFunctionOf function? at number
  cases kind : token.kind <;> simp_all [TokenKind.isValue]

theorem isValue_of_isStringCompatible {token : Token} (string : token.isStringCompatible = true) :
    token.kind.isValue = true := by
  unfold isStringCompatible at string
  cases kind : token.kind <;> simp_all [TokenKind.isValue]

/-- A merged token passes the check of a condition just when it is boolean. -/
theorem Merged.isBooleanCompatible_iff {token : Token} (merged : token.Merged) :
    token.isBooleanCompatible = true ↔
      token.kind.isCondition = true ∧ Shape.callsNonBoolean token = false := by
  unfold isBooleanCompatible isFunctionOf Shape.callsNonBoolean
  cases kind : token.kind with
  | function => exact absurd kind merged.noFunction
  | call =>
      obtain ⟨function, named⟩ : ∃ function, token.function? = some function := by
        simp [function?, kind]
      have same := (merged.startsWith named).prefix_iff
      simp only [named, Option.any_some, TokenKind.isCondition, List.contains_iff_mem, Bool.or_false,
        true_and, decide_true, Bool.true_and, Bool.not_eq_false', same]
  | _ => simp [function?, kind, TokenKind.isCondition]

end Token

namespace ShapeError

theorem surplus_eq_nil_iff {allowed : Nat} {tokens : List Token} :
    surplus allowed tokens = [] ↔ tokens.length ≤ allowed := by
  unfold surplus
  rw [← List.drop_eq_nil_iff]
  split <;> simp_all

end ShapeError

namespace Shape

open ShapeError

/-- What the operator after a number or a string allows. -/
structure Suits (first operator second : Token) : Prop where
  number : first.kind = .number →
    operator.name ∈ Vocabulary.numberSetOperators ∧ second.isNumberCompatible = true
  string : first.kind = .string →
    operator.name ∈ Vocabulary.stringSetOperators ∧ second.isStringCompatible = true

/-- What may be given to a variable: nothing, an operator and a number, a value, or two values with an
operator between them. What starts with a token of unknown kind is wrong already. -/
inductive Value : List Token → Prop where
  | empty : Value []
  | unknown {first : Token} {rest : List Token} (kind : first.kind = .unknown) : Value (first :: rest)
  | change {operator number : Token} (kind : operator.kind = .operator)
    (fits : number.isNumberCompatible = true) : Value [operator, number]
  | single {value : Token} (kind : value.kind.isValue = true) : Value [value]
  | operation {first operator second : Token} (firstKind : first.kind.isValue = true)
    (operates : operator.kind.isOperator = true) (secondKind : second.kind.isValue = true)
    (suits : Suits first operator second) : Value [first, operator, second]

/-- An operation whose second operand is no value, after a value that says nothing of it. -/
inductive Lopsided : List Token → Prop where
  | mk {first operator second : Token} (firstKind : first.kind.isValue = true)
    (noNumber : first.kind ≠ .number) (noString : first.kind ≠ .string)
    (operates : operator.kind.isOperator = true) (secondKind : second.kind.isValue = false) :
    Lopsided [first, operator, second]

/-- What may be a condition: nothing, a boolean, or two with `and` or `or` between them. -/
inductive Condition : List Token → Prop where
  | empty : Condition []
  | unknown {first : Token} {rest : List Token} (kind : first.kind = .unknown) : Condition (first :: rest)
  | single {token : Token} (fits : token.isBooleanCompatible = true) : Condition [token]
  | junction {first operator second : Token} (firstFits : first.isBooleanCompatible = true)
    (joins : operator.kind = .booleanOperator) (secondFits : second.isBooleanCompatible = true) :
    Condition [first, operator, second]

/-- Of three tokens at most, the second operand is the last. -/
theorem last_operand_iff {first operator : Token} {operands : List Token} {fits : Token → Prop} :
    ((first :: operator :: operands).length ≤ 3 ∧ ∃ second ∈ operands.head?, fits second) ↔
      ∃ second, operands = [second] ∧ fits second := by
  constructor
  · rintro ⟨short, second, found, held⟩
    obtain ⟨others, rfl⟩ := List.head?_eq_some_iff.1 found
    simp only [List.length_cons] at short
    obtain rfl : others = [] := List.eq_nil_of_length_eq_zero (by omega)
    exact ⟨second, rfl, held⟩
  · rintro ⟨second, rfl, held⟩
    exact ⟨by simp, second, rfl, held⟩

theorem operationErrors_eq_nil_iff {first operator : Token} {operand : Option Token} :
    operationErrors first operator operand = [] ↔
      operator.kind.isOperator = true ∧ ∃ second ∈ operand, Suits first operator second := by
  unfold operationErrors
  cases operates : operator.kind.isOperator with
  | false => simp
  | true =>
      cases operand with
      | none => simp
      | some second =>
          have number (noString : first.kind ≠ .string) : Suits first operator second ↔
              (first.kind = .number → operator.name ∈ Vocabulary.numberSetOperators ∧
                second.isNumberCompatible = true) :=
            ⟨Suits.number, fun fits => ⟨fits, fun same => absurd same noString⟩⟩
          have string (noNumber : first.kind ≠ .number) : Suits first operator second ↔
              (first.kind = .string → operator.name ∈ Vocabulary.stringSetOperators ∧
                second.isStringCompatible = true) :=
            ⟨Suits.string, fun fits => ⟨fun same => absurd same noNumber, fits⟩⟩
          by_cases isNumber : first.kind = .number
          · simp [isNumber, number, ite_eq_iff]
          · simp [isNumber, string, ite_eq_iff]

section Value

variable {first : Token} {rest : List Token}

theorem valueErrors_of_operator (kind : first.kind = .operator) :
    valueErrors (first :: rest) = [] ↔ ∃ number, rest = [number] ∧ number.isNumberCompatible = true := by
  unfold valueErrors
  rcases rest with _ | ⟨number, _ | ⟨next, others⟩⟩
  · simp [kind]
  · simp [kind]
  · simp [kind, surplus_eq_nil_iff]

theorem valueErrors_of_value (kind : first.kind.isValue = true) :
    valueErrors (first :: rest) = [] ↔ rest = [] ∨ ∃ operator second, rest = [operator, second] ∧
      operator.kind.isOperator = true ∧ Suits first operator second := by
  have noOperator : first.kind ≠ .operator := by rintro same; simp [same, TokenKind.isValue] at kind
  have known : first.kind ≠ .unknown := by rintro same; simp [same, TokenKind.isValue] at kind
  rcases rest with _ | ⟨operator, operands⟩
  · unfold valueErrors
    simp [noOperator, known, kind]
  have whole : valueErrors (first :: operator :: operands) =
      surplus 3 (first :: operator :: operands) ++ operationErrors first operator operands.head? := by
    unfold valueErrors
    simp [noOperator, known, kind]
  rw [whole, List.append_eq_nil_iff, surplus_eq_nil_iff, operationErrors_eq_nil_iff, and_left_comm,
    last_operand_iff]
  constructor
  · rintro ⟨operates, second, rfl, suits⟩
    exact .inr ⟨operator, second, rfl, operates, suits⟩
  · rintro (none | ⟨_, second, same, operates, suits⟩)
    · cases none
    · cases same
      exact ⟨operates, second, rfl, suits⟩

/-- Just the values of the grammar and lopsided operations are given to a variable without an error. -/
theorem valueErrors_eq_nil_iff {tokens : List Token} :
    valueErrors tokens = [] ↔ Value tokens ∨ Lopsided tokens := by
  constructor
  · intro silent
    cases tokens with
    | nil => exact .inl .empty
    | cons first rest =>
        by_cases isOperator : first.kind = .operator
        · obtain ⟨number, rfl, fits⟩ := (valueErrors_of_operator isOperator).1 silent
          exact .inl (.change isOperator fits)
        by_cases isUnknown : first.kind = .unknown
        · exact .inl (.unknown isUnknown)
        cases isValue : first.kind.isValue with
        | false =>
            unfold valueErrors at silent
            simp [isOperator, isUnknown, isValue] at silent
        | true =>
            rcases (valueErrors_of_value isValue).1 silent with rfl | ⟨operator, second, rfl, operates, suits⟩
            · exact .inl (.single isValue)
            cases secondKind : second.kind.isValue with
            | true => exact .inl (.operation isValue operates secondKind suits)
            | false =>
                -- a number or a string would have looked at the second operand
                refine .inr (.mk isValue (fun number => ?_) (fun string => ?_) operates secondKind)
                · simp [Token.isValue_of_isNumberCompatible (suits.number number).2] at secondKind
                · simp [Token.isValue_of_isStringCompatible (suits.string string).2] at secondKind
  · rintro (value | lopsided)
    · cases value with
      | empty => rfl
      | unknown kind =>
          unfold valueErrors
          simp [kind]
      | change kind fits => exact (valueErrors_of_operator kind).2 ⟨_, rfl, fits⟩
      | single kind => exact (valueErrors_of_value kind).2 (.inl rfl)
      | operation firstKind operates _ suits =>
          exact (valueErrors_of_value firstKind).2 (.inr ⟨_, _, rfl, operates, suits⟩)
    · cases lopsided with
      | mk firstKind noNumber noString operates _ =>
          refine (valueErrors_of_value firstKind).2 (.inr ⟨_, _, rfl, operates, ?_⟩)
          exact ⟨fun number => absurd number noNumber, fun string => absurd string noString⟩

end Value

section Condition

variable {tokens : List Token} {first operator : Token} {rest : List Token}

theorem junctionErrors_eq_nil_iff {operand : Option Token} (merged : ∀ second ∈ operand, second.Merged) :
    junctionErrors operator operand = [] ↔
      operator.kind = .booleanOperator ∧ ∃ second ∈ operand, second.isBooleanCompatible = true := by
  unfold junctionErrors
  by_cases joins : operator.kind = .booleanOperator
  · cases operand with
    | none => simp [joins]
    | some second =>
        have fits := (merged second rfl).isBooleanCompatible_iff
        by_cases call : second.kind = .call
        · simp [joins, call, fits, TokenKind.isCondition]
        · simp [joins, call]
  · simp [joins]

theorem conditionErrors_of_merged (merged : ∀ token ∈ first :: rest, token.Merged)
    (known : first.kind ≠ .unknown) :
    conditionErrors (first :: rest) = [] ↔ first.isBooleanCompatible = true ∧
      (rest = [] ∨ ∃ operator second, rest = [operator, second] ∧ operator.kind = .booleanOperator ∧
        second.isBooleanCompatible = true) := by
  have noFunction := (merged first List.mem_cons_self).noFunction
  have fits := (merged first List.mem_cons_self).isBooleanCompatible_iff
  cases kind : first.kind.isCondition with
  | false => simp [conditionErrors, noFunction, known, kind, fits]
  | true =>
      have alone : (if callsNonBoolean first then [ofToken .nonBooleanFunction first] else []) = [] ↔
          first.isBooleanCompatible = true := by simp [fits, kind]
      rcases rest with _ | ⟨operator, operands⟩
      · rw [← alone]
        unfold conditionErrors
        simp [noFunction, known, kind]
      have whole : conditionErrors (first :: operator :: operands) =
          (if callsNonBoolean first then [ofToken .nonBooleanFunction first] else []) ++
            (surplus 3 (first :: operator :: operands) ++ junctionErrors operator operands.head?) := by
        unfold conditionErrors
        simp [noFunction, known, kind]
      have later : ∀ second ∈ operands.head?, second.Merged := fun second found =>
        merged second (by simp [List.mem_of_head? found])
      rw [whole, List.append_eq_nil_iff, alone]
      refine and_congr_right fun _ => ?_
      rw [List.append_eq_nil_iff, surplus_eq_nil_iff, junctionErrors_eq_nil_iff later, and_left_comm,
        last_operand_iff]
      constructor
      · rintro ⟨joins, second, rfl, secondFits⟩
        exact .inr ⟨operator, second, rfl, joins, secondFits⟩
      · rintro (none | ⟨_, second, same, joins, secondFits⟩)
        · cases none
        · cases same
          exact ⟨joins, second, rfl, secondFits⟩

/-- Just the conditions of the grammar are accepted. -/
theorem conditionErrors_eq_nil_iff (merged : ∀ token ∈ tokens, token.Merged) :
    conditionErrors tokens = [] ↔ Condition tokens := by
  cases tokens with
  | nil => exact ⟨fun _ => .empty, fun _ => rfl⟩
  | cons first rest =>
      by_cases isUnknown : first.kind = .unknown
      · exact ⟨fun _ => .unknown isUnknown, fun _ => by simp [conditionErrors, isUnknown]⟩
      rw [conditionErrors_of_merged merged isUnknown]
      constructor
      · rintro ⟨fits, rfl | ⟨operator, second, rfl, joins, secondFits⟩⟩
        · exact .single fits
        · exact .junction fits joins secondFits
      · rintro (_ | kind | fits | ⟨firstFits, joins, secondFits⟩)
        · exact absurd kind isUnknown
        · exact ⟨fits, .inl rfl⟩
        · exact ⟨firstFits, .inr ⟨_, _, rfl, joins, secondFits⟩⟩

end Condition

end Shape

namespace Parser

variable {expression : Expression} {errors : List ShapeError}

/-- Each shape error is reported once, in order, and nothing else is. -/
theorem shapeErrors_run (expression : Expression) (fine : Shape.Fine errors) (source : Source)
    (progress : Progress) :
    ∃ diagnostics : List Diagnostic, diagnostics.map (·.code) = errors.map (·.notice.code) ∧
      shapeErrors expression errors source progress =
        (.ok (), { progress with reports := progress.reports ++ diagnostics.map .error }) := by
  induction errors generalizing progress with
  | nil => exact ⟨[], rfl, by simp [shapeErrors, Pure.pure]⟩
  | cons error errors ih =>
      have le := fine error List.mem_cons_self
      obtain ⟨diagnostic, made, -⟩ : ∃ diagnostic, error.notice.between source.document
          (expression.globalIndex + error.start) (expression.globalIndex + error.stop) [] =
            .ok diagnostic ∧ source.document.Covers diagnostic.range :=
        Notice.between_ok (by omega) rfl
      obtain ⟨diagnostics, codes, ran⟩ := ih (fun error member => fine error (.tail _ member))
        { progress with reports := progress.reports ++ [.error diagnostic] }
      refine ⟨diagnostic :: diagnostics, by simp [codes, Notice.code_of_between made], ?_⟩
      have first : complain error.notice (expression.globalIndex + error.start)
          (expression.globalIndex + error.stop) [] source progress =
            (.ok (), { progress with reports := progress.reports ++ [.error diagnostic] }) := by
        simp only [complain, made, report]
      change (complain error.notice _ _ [] >>= fun _ => shapeErrors expression errors) source progress = _
      simp only [Bind.bind, first, ran]
      simp

theorem shapeErrors_silent_iff (fine : Shape.Fine errors) (source : Source) (progress : Progress) :
    (shapeErrors expression errors source progress).1 = .ok () ∧
      ((shapeErrors expression errors source progress).2.reports = progress.reports ↔ errors = []) := by
  obtain ⟨diagnostics, codes, ran⟩ := shapeErrors_run expression fine source progress
  have empty : diagnostics = [] ↔ errors = [] := by
    rw [← List.map_eq_nil_iff, codes, List.map_eq_nil_iff]
  rw [ran]
  exact ⟨rfl, by simp [empty]⟩

/-- The check of a value passes, and it reports nothing just when it finds no error. -/
theorem checkValue_passes (text : Text) (index : Int) (source : Source) (progress : Progress) :
    (checkValue (Expression.ofText text index) source progress).1 = .ok () ∧
      ((checkValue (Expression.ofText text index) source progress).2.reports = progress.reports ↔
        Shape.valueErrors (Expression.ofText text index).combined = []) := by
  have ordered := Token.combine_inOrder (Expression.ofText_ordered text index).tokens
  exact shapeErrors_silent_iff (Shape.fine_valueErrors ordered) source progress

/-- Just the shapes of the grammar are values, and lopsided operations besides. -/
theorem checkValue_silent_iff (text : Text) (index : Int) (source : Source) (progress : Progress) :
    (checkValue (Expression.ofText text index) source progress).1 = .ok () ∧
      ((checkValue (Expression.ofText text index) source progress).2.reports = progress.reports ↔
        Shape.Value (Expression.ofText text index).combined ∨
          Shape.Lopsided (Expression.ofText text index).combined) := by
  rw [← Shape.valueErrors_eq_nil_iff]
  exact checkValue_passes text index source progress

/-- An operator takes the place of the second operand, and nothing is reported. -/
theorem operator_passes_for_operand :
    (∀ source progress,
      (checkValue (Expression.ofText "a + +".toList 0) source progress).2.reports = progress.reports) ∧
      ¬ Shape.Value (Expression.ofText "a + +".toList 0).combined := by
  have tokens : (Expression.ofText "a + +".toList 0).combined =
      [⟨.variableName, "a".toList, 0⟩, ⟨.operator, "+".toList, 2⟩, ⟨.operator, "+".toList, 4⟩] := by
    decide +kernel
  refine ⟨fun source progress => (checkValue_passes _ 0 source progress).2.2 ?_, fun value => ?_⟩
  · rw [tokens]
    decide
  · rw [tokens] at value
    cases value <;> simp_all [TokenKind.isValue]

/-- Just the conditions of the grammar are accepted. A token that names or calls a function starts with
`not` just when that function is boolean, and no function name stands without its arguments. -/
theorem checkCondition_silent_iff (text : Text) (index : Int) (source : Source) (progress : Progress) :
    ((checkCondition (Expression.ofText text index) source progress).1 = .ok () ∧
      ((checkCondition (Expression.ofText text index) source progress).2.reports = progress.reports ↔
        Shape.Condition (Expression.ofText text index).combined)) ∧
    (∀ token ∈ (Expression.ofText text index).tokens ++ (Expression.ofText text index).combined,
      ∀ function ∈ token.function?,
        ("not".toList.isPrefixOf token.text = true ↔ function ∈ Vocabulary.booleanFunctions)) ∧
    ∀ token ∈ (Expression.ofText text index).combined, token.kind ≠ .function := by
  have applied : Token.Applied (Expression.ofText text index).tokens :=
    Lexed.readFrom_applied 0 text
  have merged : ∀ token ∈ (Expression.ofText text index).combined, token.Merged :=
    fun _ => Expression.combined_merged
  have fine := Shape.fine_conditionErrors
    (Token.combine_inOrder (Expression.ofText_ordered text index).tokens)
  refine ⟨?_, fun token member function named => ?_, fun token member => (merged token member).noFunction⟩
  · simp only [← Shape.conditionErrors_eq_nil_iff merged]
    exact shapeErrors_silent_iff fine source progress
  · rcases List.mem_append.1 member with lexed | combined
    · exact (applied.startsWith lexed named).prefix_iff
    · exact ((merged token combined).startsWith named).prefix_iff

/-- A negation may be a condition, alone or joined to another. -/
theorem negation_silent : ∃ negation ∈ (Expression.ofText "not(a) and b".toList 0).combined,
    "not" ∈ negation.function? ∧ negation.kind ≠ .function ∧
    ("not".toList.isPrefixOf negation.text = true ↔ "not" ∈ Vocabulary.booleanFunctions) ∧
    ∀ source progress,
      (checkCondition (Expression.ofText "not(a) and b".toList 0) source progress).2.reports =
        progress.reports := by
  have tokens : (Expression.ofText "not(a) and b".toList 0).combined =
      [⟨.call, "not(a)".toList, 0⟩, ⟨.booleanOperator, "and".toList, 7⟩,
        ⟨.variableName, "b".toList, 11⟩] := by
    decide +kernel
  have member : ⟨.call, "not(a)".toList, 0⟩ ∈ (Expression.ofText "not(a) and b".toList 0).combined :=
    tokens ▸ List.mem_cons_self
  have whole (source : Source) (progress : Progress) :=
    checkCondition_silent_iff "not(a) and b".toList 0 source progress
  obtain ⟨-, prefixed, applied⟩ := whole ⟨⟨"file:///game/a.txt", [], 0⟩, "startup.txt"⟩ {}
  refine ⟨_, member, rfl, applied _ member, prefixed _ (List.mem_append_right _ member) "not" rfl,
    fun source progress => (whole source progress).1.2.2 ?_⟩
  rw [tokens]
  exact .junction (by decide) rfl (by decide)

end Parser

end ChoiceScript
