import ChoiceScript.Diagnostic.Catalogue
import ChoiceScript.Expression.Token
import ChoiceScript.Text.Delimiter
import ChoiceScript.Text.Opener

/-! # Lexing expressions

Every character that is not white space belongs to a token. What starts no token becomes one of
unknown kind and a lexing error, so that lexing never fails. A lexeme is read off the rest of the
text alone and takes at least one character of it.
-/

namespace ChoiceScript

/-- What can be wrong with a token. -/
inductive LexProblem where
  | unterminatedString
  | unknownOperator
  | multireplace
  deriving DecidableEq, Repr

def LexProblem.notice : LexProblem → Notice
  | unterminatedString => .unterminatedString
  | unknownOperator => .unknownOperator
  | multireplace => .multireplaceInExpression

/-- A problem and where it starts and stops. -/
structure LexError where
  problem : LexProblem
  start : Nat
  stop : Nat
  deriving DecidableEq, Repr

/-- The kind, length and problem of the token at the head of a text. -/
structure Lexeme where
  kind : TokenKind
  length : Nat
  problem : Option LexProblem := none
  deriving DecidableEq, Repr

namespace Lexeme

/-- The length of what follows an opening quote, up to and including the closing one. A backslash
takes the next character with it. -/
def stringRest? : Text → Option Nat
  | [] => none
  | '"' :: _ => some 1
  | '\\' :: _ :: rest => (stringRest? rest).map (· + 2)
  | _ :: rest => (stringRest? rest).map (· + 1)

def string (rest : Text) : Lexeme :=
  match stringRest? rest with
  | some length => { kind := .string, length := length + 1 }
  | none => {
      kind := .string
      length := rest.length + 1
      problem := some .unterminatedString }

/-- A group whose opener has the given length. One that is not closed takes the whole text. -/
def group (kind : TokenKind) (opening closing : Char) (text : Text) (openerLength : Nat) :
    Lexeme :=
  match Text.matchingSpan text opening closing openerLength with
  | some contents => { kind, length := openerLength + contents.length + 1 }
  | none => { kind, length := text.length }

/-- The length of a fraction with its point, if there is one. -/
def fractionLength : Text → Nat
  | '.' :: rest =>
    match rest.takeWhile Text.isDecimal with
    | [] => 0
    | digits => digits.length + 1
  | _ => 0

/-- The kind of a word, given what follows it. -/
def wordKind (word : String) (rest : Text) : TokenKind :=
  if Vocabulary.booleanOperators.contains word then .booleanOperator
  else if Vocabulary.numberOperators.contains word then .numberOperator
  else if Vocabulary.booleanValues.contains word then .booleanValue
  else if Vocabulary.functions.contains word && rest.head? = some '(' then .function
  else .variableName

def symbolicOperator? (text : Text) : Option String :=
  Vocabulary.symbolicOperators.find? fun operator => operator.toList.isPrefixOf text

/-- Can the character start a token, or part two? Runs of unknown characters stop at these. -/
def endsUnknown (c : Char) : Bool :=
  Text.isBlank c || Text.isWord c || "\"(\x7b$@+-*/%&=<>".toList.contains c

/-- The token at the head of `c :: rest`, where `c` is not white space. -/
def read (c : Char) (rest : Text) : Lexeme :=
  let text := c :: rest
  if c = '"' then string rest
  else if c = '(' then group .parentheses '(' ')' text 1
  else if c = '{' then group .reference '{' '}' text 1
  else match Opener.at? text with
  | some ⟨.replacement, length⟩ => group .reference '{' '}' text length
  | some ⟨.multireplace, length⟩ =>
    { group .unknown '{' '}' text length with problem := some .multireplace }
  | none =>
    let digits := text.takeWhile Text.isDecimal
    if digits ≠ [] then
      { kind := .number, length := digits.length + fractionLength (text.drop digits.length) }
    else
      let word := text.takeWhile Text.isWord
      if word ≠ [] then
        { kind := wordKind (String.ofList word) (text.drop word.length), length := word.length }
      else match symbolicOperator? text with
      | some operator => { kind := .operator, length := operator.length }
      | none => {
          kind := .unknown
          length := max 1 (text.takeWhile (!endsUnknown ·)).length
          problem := some .unknownOperator }

end Lexeme

/-- A token and what is wrong with it. -/
structure Lexed where
  token : Token
  problem : Option LexProblem
  deriving DecidableEq, Repr

namespace Lexed

/-- Read tokens to the end of a text that starts at the given offset. -/
def readFrom (offset : Nat) : Text → List Lexed
  | [] => []
  | c :: rest =>
    if Text.isBlank c then readFrom (offset + 1) rest
    else
      let lexeme := Lexeme.read c rest
      let token := ⟨lexeme.kind, c :: rest.take (lexeme.length - 1), offset⟩
      ⟨token, lexeme.problem⟩ :: readFrom token.stop (rest.drop (lexeme.length - 1))
termination_by text => text.length
decreasing_by all_goals simp +arith [List.length_drop]

def error? (lexed : Lexed) : Option LexError :=
  lexed.problem.map fun problem => ⟨problem, lexed.token.start, lexed.token.stop⟩

/-- No token is longer than the text it is read from. -/
theorem length_le_of_mem_readFrom {offset : Nat} {text : Text} {lexed : Lexed}
    (h : lexed ∈ readFrom offset text) : lexed.token.text.length ≤ text.length := by
  fun_induction readFrom offset text with
  | case1 => simp at h
  | case2 offset c rest isBlank ih =>
    have := ih h
    simp only [List.length_cons]
    omega
  | case3 offset c rest notBlank lexeme token ih =>
    rcases List.mem_cons.1 h with rfl | later
    · simp only [token, List.length_cons, List.length_take]
      omega
    · have := ih later
      rw [List.length_drop] at this
      simp only [List.length_cons]
      omega

end Lexed

end ChoiceScript
