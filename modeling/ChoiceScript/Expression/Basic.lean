import ChoiceScript.Expression.Lexer

/-! # Expressions

The tokens of a text that stands somewhere in a document, with the errors found in lexing it. Token
offsets count from the start of the text; a slice keeps the text and its place.
-/

namespace ChoiceScript

/-- A lexed text and the document offset it starts at. -/
structure Expression where
  text : Text
  globalIndex : Int
  tokens : List Token
  errors : List LexError
  deriving DecidableEq, Repr

namespace Expression

/-- The tokens of a text with what is wrong with them. -/
def lexed (text : Text) : List Lexed := Lexed.readFrom 0 text

/-- Lex a text that starts at a document offset. -/
def ofText (text : Text) (globalIndex : Int) : Expression where
  text
  globalIndex
  tokens := (lexed text).map (·.token)
  errors := (lexed text).filterMap Lexed.error?

/-- The tokens with function names and their arguments merged. -/
def combined (expression : Expression) : List Token := Token.combine expression.tokens

/-- The tokens from one index up to another, or to the end, and the errors that start among them. -/
def slice (expression : Expression) (start : Nat) (stop : Option Nat) : Expression :=
  let tokens :=
    match stop with
    | some stop => (expression.tokens.take stop).drop start
    | none => expression.tokens.drop start
  let errors :=
    match tokens.head?, tokens.getLast? with
    | some first, some last =>
      expression.errors.filter fun error => first.start ≤ error.start && error.start < last.stop
    | _, _ => []
  { expression with tokens, errors }

def diagnostics (expression : Expression) (document : Document) :
    Except Fault (List Diagnostic) :=
  expression.errors.mapM fun error =>
    error.problem.notice.between document (expression.globalIndex + error.start)
      (expression.globalIndex + error.stop) []

/-- No token is longer than the text. -/
theorem length_le_of_mem_tokens {text : Text} {globalIndex : Int} {token : Token}
    (h : token ∈ (ofText text globalIndex).tokens) : token.text.length ≤ text.length := by
  obtain ⟨lexed, member, rfl⟩ := List.mem_map.1 h
  exact Lexed.length_le_of_mem_readFrom member

end Expression

end ChoiceScript
