import ChoiceScript.Text.Basic
import ChoiceScript.Vocabulary

/-! # Tokens of expressions

Tokens know their kind, their text and where they start. A group in parentheses or braces is one
token, and so is a string. In the combined view a function name and the parentheses right after it
are one token too.
-/

namespace ChoiceScript

/-- What a token is. -/
inductive TokenKind where
  | number
  | string
  | booleanValue
  | variableName
  /-- An expression in braces, as in `{name}` or `${name}`. -/
  | reference
  | parentheses
  /-- The name of a function before an open parenthesis. -/
  | function
  /-- A function with its arguments; only in the combined view. -/
  | call
  | operator
  | numberOperator
  | booleanOperator
  | unknown
  deriving DecidableEq, Repr

namespace TokenKind

def name : TokenKind → String
  | number => "NUMBER"
  | string => "STRING"
  | booleanValue => "BOOLEAN_NAMED_VALUE"
  | variableName => "VARIABLE"
  | reference => "VARIABLE_REFERENCE"
  | parentheses => "PARENTHESES"
  | function => "FUNCTION"
  | call => "FUNCTION_AND_CONTENTS"
  | operator => "OPERATOR"
  | numberOperator => "NUMERIC_NAMED_OPERATOR"
  | booleanOperator => "BOOLEAN_NAMED_OPERATOR"
  | unknown => "UNKNOWN_OPERATOR"

/-- Does a token of this kind stand between two values? -/
def isOperator : TokenKind → Bool
  | operator | numberOperator | booleanOperator => true
  | _ => false

/-- Can a token of this kind be the value of a variable? -/
def isValue : TokenKind → Bool
  | number | string | booleanValue | variableName | reference | parentheses | function
  | call => true
  | _ => false

/-- Can a token of this kind be a condition? A call can if its function is boolean. -/
def isCondition : TokenKind → Bool
  | booleanValue | variableName | reference | parentheses | call => true
  | _ => false

end TokenKind

/-- A token of an expression and the offset where it starts. -/
structure Token where
  kind : TokenKind
  text : Text
  start : Nat
  deriving DecidableEq, Repr

namespace Token

def stop (token : Token) : Nat := token.start + token.text.length

def name (token : Token) : String := String.ofList token.text

def function? (token : Token) : Option String :=
  match token.kind with
  | .function => some token.name
  | .call => some (String.ofList (token.text.takeWhile (· ≠ '(')))
  | _ => none

/-- Does the token name or call one of these functions? -/
def isFunctionOf (token : Token) (functions : List String) : Bool :=
  token.function?.any functions.contains

def isNumberCompatible (token : Token) : Bool :=
  token.isFunctionOf Vocabulary.numberFunctions ||
    token.kind matches .number | .reference | .variableName | .parentheses

def isBooleanCompatible (token : Token) : Bool :=
  token.isFunctionOf Vocabulary.booleanFunctions ||
    token.kind matches .booleanValue | .reference | .variableName | .parentheses

def isStringCompatible (token : Token) : Bool :=
  token.kind matches .string | .reference | .variableName | .parentheses

/-- Are these a function name and its arguments, with nothing between them? -/
def isCallOf (function arguments : Token) : Bool :=
  function.kind = .function && arguments.kind = .parentheses && arguments.start = function.stop

/-- The call that a function name and its arguments make up. -/
def call (function arguments : Token) : Token :=
  ⟨.call, function.text ++ arguments.text, function.start⟩

/-- Merge each function name with the arguments right after it. -/
def combine : List Token → List Token
  | first :: second :: rest =>
    if first.isCallOf second then first.call second :: combine rest
    else first :: combine (second :: rest)
  | tokens => tokens

end Token

end ChoiceScript
