import ChoiceScript.Expression.Basic
import ChoiceScript.Parser.Basic
import ChoiceScript.Parser.Opening
import ChoiceScript.Text.Line

/-! # Constructs in prose and expressions

References, parentheses, strings and multireplaces nest in one another. Each is read from a text
whose first character stands at the document offset `origin`, with its contents starting at the
offset `start` of the text, and gives the offset where reading goes on.

What stands inside a construct is an expression on a strictly shorter text. So each reader takes
the way to read such expressions, a `Descent`, and `walk` ties the knot by the length of its text.
-/

namespace ChoiceScript

/-- A way to read expressions shorter than a bound, given the document offset of their text. -/
abbrev Descent (bound : Nat) : Type :=
  (text : Text) → text.length < bound → (index : Int) → Parser Unit

/-- A way to read expressions serves for a smaller bound too. -/
def Descent.weaken {low high : Nat} (descend : Descent high) (le : low ≤ high) : Descent low :=
  fun text shorter index => descend text (Nat.lt_of_lt_of_le shorter le) index

namespace Parser

/-- The end of the line that holds an offset, or of the text. -/
def lineEnd (text : Text) (start : Nat) : Nat := (Text.lineEnd? text start).getD text.length

/-- Report a construct that is not closed: from its opener to the end of the line. -/
def complainUnclosed (notice : Notice) (text : Text) (openLength origin : Int) (start : Nat) :
    Parser Unit :=
  complain notice (start - openLength + origin) (lineEnd text start + origin) []

def referenceContents (text : Text) (descend : Descent text.length) (openLength origin : Int)
    (start : Nat) : Parser Unit :=
  match span : Text.matchingSpan text '{' '}' start with
  | none => complainUnclosed .replacementUnclosed text openLength origin start
  | some contents =>
    if Text.blank contents then
      complain .replacementEmpty (start - openLength + origin)
        (start + contents.length + 1 + origin) []
    else
      descend contents (by have := Text.length_lt_of_matchingSpan span; omega) (start + origin)

/-- Read a reference or replacement, whose opener has the given length. -/
def referenceWith (text : Text) (descend : Descent text.length) (openLength origin : Int)
    (start : Nat) : Parser Nat :=
  within .variableReference do
    referenceContents text descend openLength origin start
    return text.resumeReference start

def parenthesesContents (text : Text) (descend : Descent text.length) (origin : Int)
    (start : Nat) : Parser Unit :=
  match span : Text.matchingSpan text '(' ')' start with
  | none => complainUnclosed .parenthesesUnclosed text 1 origin start
  | some contents =>
    descend contents (by have := Text.length_lt_of_matchingSpan span; omega) (start + origin)

def parenthesesWith (text : Text) (descend : Descent text.length) (origin : Int) (start : Nat) :
    Parser Nat :=
  within .parentheses do
    parenthesesContents text descend origin start
    return text.resumeGroup '(' ')' start

/-- Report the first multireplace that opens in the body of another. -/
def complainNested (text : Text) (multireplace : Multireplace) (origin : Int) : Parser Unit :=
  let stop := multireplace.stop - 1
  match Opener.seek Opener.multireplaceAt? ((text.take stop).drop multireplace.test.stop) with
  | none => pure ()
  | some (skipped, opener) =>
    let start := multireplace.test.stop + skipped
    let contents := start + opener.length
    let nestedStop :=
      match Text.matchingSpan text '{' '}' contents with
      | some inner => contents + inner.length + 1
      | none => stop
    complain .multireplaceNested (start + origin) (nestedStop + origin) []

/-- Read the text of an option. Multireplace openers in it read as prose, so that replacements are
all that is left. -/
def optionWith (text : Text) (descend : Descent text.length) (origin : Int) : Parser Unit :=
  let prose := Opener.blankMultireplaces text
  let descend := descend.weaken (Nat.le_of_eq (Opener.length_blankMultireplaces text))
  (Opening.between prose 0 prose.length).forM fun opening =>
    discard (referenceWith prose descend opening.opener.length origin opening.contents)

def optionsWith {bound : Nat} (descend : Descent bound) (origin : Int) : (options : List Piece) →
    (∀ option ∈ options, option.text.length < bound) → Parser Unit
  | [], _ => pure ()
  | option :: options, short => do
    optionWith option.text (descend.weaken (Nat.le_of_lt (short option (by simp))))
      (option.start + origin)
    optionsWith descend origin options fun option member => short option (by simp [member])

/-- Read what stands in a multireplace; `nested` says that it stands in another. -/
def multireplaceContents (text : Text) (descend : Descent text.length) (openLength origin : Int)
    (start : Nat) (nested : Bool) : Parser Unit :=
  let first : Int := start - openLength + origin
  match found : Multireplace.read? text start with
  | none => complainUnclosed .multireplaceUnclosed text openLength origin start
  | some multireplace => do
    let stop : Int := multireplace.stop + origin
    if nested then complain .multireplaceNested first stop []
    else complainNested text multireplace origin
    match multireplace.flaw? with
    | some .noTest => complain .multireplaceEmpty first stop []
    | some .noOptions => complain .multireplaceNoOptions (multireplace.test.stop + origin) stop []
    | some (.oneOption option) => complain .multireplaceOneOption (option.stop + origin) stop []
    | none =>
      have short := Multireplace.length_lt_of_read? found
      descend multireplace.test.text short.1 (multireplace.test.start + origin)
      optionsWith descend origin multireplace.options short.2

/-- Read a multireplace, whose opener has the given length. -/
def multireplaceWith (text : Text) (descend : Descent text.length) (openLength origin : Int)
    (start : Nat) : Parser Nat := do
  let nested ← isInside .multireplacement
  within .multireplacement do
    multireplaceContents text descend openLength origin start nested
    return Multireplace.resume text start

/-- Read the construct that opens at a place of a text. -/
def openingWith (text : Text) (descend : Descent text.length) (origin : Int)
    (opening : Opening) : Parser Unit :=
  match opening.opener.kind with
  | .replacement =>
    discard (referenceWith text descend opening.opener.length origin opening.contents)
  | .multireplace =>
    discard (multireplaceWith text descend opening.opener.length origin opening.contents)

/-- Read the constructs in a string up to its closing quote. -/
def stringWith (text : Text) (descend : Descent text.length) (origin : Int) (start : Nat) :
    Parser Nat := do
  let (openings, stop) := Opening.inString text start
  openings.forM (openingWith text descend origin)
  return stop

/-- Read the constructs between two offsets of a text. -/
def proseWith (text : Text) (descend : Descent text.length) (origin : Int) (start stop : Nat) :
    Parser Unit :=
  (Opening.between text start stop).forM (openingWith text descend origin)

/-- Read a token of an expression that starts at a document offset. -/
def tokenWith (index : Int) (token : Token) (descend : Descent token.text.length) :
    Parser Unit :=
  let origin := index + token.start
  match token.kind with
  | .reference =>
    let openLength := (token.text.takeWhile (· ≠ '{')).length + 1
    discard (referenceWith token.text descend openLength origin openLength)
  | .string => discard (stringWith token.text descend origin 1)
  | .parentheses => discard (parenthesesWith token.text descend origin 1)
  | .variableName => emitSymbol .reference token.text origin
  | _ => pure ()

def tokensWith (index : Int) :
    (tokens : List Token) → (∀ token ∈ tokens, Descent token.text.length) → Parser Unit
  | [], _ => pure ()
  | token :: tokens, descend => do
    tokenWith index token (descend token (by simp))
    tokensWith index tokens fun token member => descend token (by simp [member])

def lexErrors (expression : Expression) : Parser Unit := do
  let diagnostics ← lift (expression.diagnostics (← document))
  diagnostics.forM fun diagnostic => report (.error diagnostic)

/-- Read an expression: its tokens from left to right, then its lexing errors. -/
def walk (text : Text) (index : Int) : Parser Unit := do
  let expression := Expression.ofText text index
  tokensWith index expression.tokens fun token _member inner _shorter index => walk inner index
  lexErrors expression
termination_by text.length
decreasing_by exact Nat.lt_of_lt_of_le _shorter (Expression.length_le_of_mem_tokens _member)

def descent (bound : Nat) : Descent bound := fun text _ index => walk text index

/-- Read an expression that starts at a document offset. -/
def expression (text : Text) (index : Int) : Parser Expression := do
  walk text index
  return Expression.ofText text index

def lexedExpression (expression : Expression) : Parser Unit := do
  tokensWith expression.globalIndex expression.tokens fun token _ => descent token.text.length
  lexErrors expression

/-- Read a reference or replacement, whose opener has the given length. -/
def reference (text : Text) (openLength origin : Int) (start : Nat) : Parser Nat :=
  referenceWith text (descent text.length) openLength origin start

def parentheses (text : Text) (origin : Int) (start : Nat) : Parser Nat :=
  parenthesesWith text (descent text.length) origin start

/-- Read a multireplace, whose opener has the given length. -/
def multireplace (text : Text) (openLength origin : Int) (start : Nat) : Parser Nat :=
  multireplaceWith text (descent text.length) openLength origin start

/-- Read the constructs in a string up to its closing quote. -/
def string (text : Text) (origin : Int) (start : Nat) : Parser Nat :=
  stringWith text (descent text.length) origin start

/-- Read the constructs between two offsets of a text. -/
def prose (text : Text) (origin : Int) (start stop : Nat) : Parser Unit :=
  proseWith text (descent text.length) origin start stop

end Parser

end ChoiceScript
