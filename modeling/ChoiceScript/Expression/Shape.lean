import ChoiceScript.Diagnostic.Catalogue
import ChoiceScript.Expression.Token

/-! # Shapes of expressions

What may be given to a variable is a value, two values with an operator between them, or an operator
and a number, which changes the current value. A condition is a boolean, or two joined by `and` or
`or`. The checks look at combined tokens only; what groups and strings hold is checked elsewhere.
-/

namespace ChoiceScript

/-- A notice over a stretch of an expression. -/
structure ShapeError where
  notice : Notice
  start : Nat
  stop : Nat
  deriving DecidableEq, Repr

namespace ShapeError

def ofToken (notice : Notice) (token : Token) : ShapeError := ⟨notice, token.start, token.stop⟩

def after (notice : Notice) (token : Token) : ShapeError := ⟨notice, token.stop, token.stop⟩

/-- The tokens past the number that a complete expression has. -/
def surplus (allowed : Nat) (tokens : List Token) : List ShapeError :=
  match tokens.drop allowed with
  | [] => []
  | first :: rest => [⟨.tooManyElements, first.start, (rest.getLastD first).stop⟩]

end ShapeError

namespace Shape

open ShapeError

/-- What is wrong with the operator and second operand after a value. -/
def operationErrors (first operator : Token) (operand : Option Token) : List ShapeError :=
  if !operator.kind.isOperator then [ofToken .missingOperator operator]
  else match operand with
  | none => [after .missingNumber operator]
  | some operand =>
    if first.kind = .number then
      if !Vocabulary.numberSetOperators.contains operator.name then [ofToken .numberOperator operator]
      else if !operand.isNumberCompatible then [ofToken .numberOperand operand]
      else []
    else if first.kind = .string then
      if !Vocabulary.stringSetOperators.contains operator.name then [ofToken .stringOperator operator]
      else if !operand.isStringCompatible then [ofToken .stringOperand operand]
      else []
    else []

/-- What is wrong with a value for a variable. -/
def valueErrors (tokens : List Token) : List ShapeError :=
  match tokens with
  | [] => []
  | first :: rest =>
    if first.kind = .operator then
      match rest with
      | [] => [after .missingNumber first]
      | [operand] => if operand.isNumberCompatible then [] else [ofToken .notANumber operand]
      | _ => surplus 2 tokens
    else if first.kind = .unknown then []
    else if !first.kind.isValue then [ofToken .invalidValue first]
    else match rest with
    | [] => []
    | operator :: operands => surplus 3 tokens ++ operationErrors first operator operands.head?

/-- Does the token call a function that is not boolean? -/
def callsNonBoolean (token : Token) : Bool :=
  token.kind = .call && !"not".toList.isPrefixOf token.text

/-- What is wrong with the operator and second condition after a condition. -/
def junctionErrors (operator : Token) (operand : Option Token) : List ShapeError :=
  if operator.kind ≠ .booleanOperator then [ofToken .missingBooleanOperator operator]
  else match operand with
  | none => [after .missingBooleanValue operator]
  | some operand =>
    if operand.kind = .call then
      if callsNonBoolean operand then [ofToken .nonBooleanFunction operand] else []
    else if !operand.isBooleanCompatible then [ofToken .invalidCondition operand]
    else []

def conditionErrors (tokens : List Token) : List ShapeError :=
  match tokens with
  | [] => []
  | first :: rest =>
    if first.kind = .function || first.kind = .unknown then []
    else if !first.kind.isCondition then [ofToken .invalidCondition first]
    else
      (if callsNonBoolean first then [ofToken .nonBooleanFunction first] else []) ++
      match rest with
      | [] => []
      | operator :: operands => surplus 3 tokens ++ junctionErrors operator operands.head?

end Shape

end ChoiceScript
