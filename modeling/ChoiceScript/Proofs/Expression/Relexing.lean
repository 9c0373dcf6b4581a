import ChoiceScript.Proofs.Expression.Calls
import ChoiceScript.Proofs.Expression.Slices

/-! # Tokens read alone

What a token is does not depend on the text around it: read alone, the text of a token is the same token,
and the same is wrong with it. Only the name of a function is known by the parenthesis that follows it,
and without one it is the name of a variable.
-/

namespace ChoiceScript

/-- What a token is where nothing follows it. -/
def TokenKind.alone : TokenKind → TokenKind
  | .function => .variableName
  | kind => kind

theorem TokenKind.alone_eq {kind : TokenKind} (other : kind ≠ .function) : kind.alone = kind := by
  cases kind <;> first | rfl | exact absurd rfl other

/-- Where a text is cut behind its longest prefix that satisfies a test, the prefix is the same. -/
theorem Text.takeWhile_take {test : Char → Bool} {text : Text} {length : Nat}
    (long : (text.takeWhile test).length ≤ length) :
    (text.take length).takeWhile test = text.takeWhile test := by
  induction text generalizing length with
  | nil => simp
  | cons c rest ih =>
      cases holds : test c with
      | false => cases length <;> simp [holds]
      | true =>
          simp only [List.takeWhile_cons, holds, if_true, List.length_cons] at long
          cases length with
          | zero => omega
          | succ length => simp [holds, ih (by omega : _ ≤ length)]

/-- What opens at the head of a text opens there whatever follows. -/
theorem Opener.at?_append {text : Text} {opener : Opener} (found : at? text = some opener) (after : Text) :
    at? (text ++ after) = some opener := by
  unfold at? bangsToBrace? at found
  split at found <;> simp only [Option.map_eq_some_iff, reduceCtorEq] at found
  all_goals
    obtain ⟨length, bangs, rfl⟩ := found
    split at bangs <;> simp only [Option.some.injEq, reduceCtorEq] at bangs
    all_goals
      subst bangs
      rfl

namespace Lexeme

variable {c : Char} {rest : Text}

/-- The lexeme of a token's text, where nothing follows it. -/
def alone (lexeme : Lexeme) : Lexeme := { lexeme with kind := lexeme.kind.alone }

/-- A lexeme that is read at the head of a text is read off its own characters too. -/
def StandsAlone (lexeme : Lexeme) (c : Char) (rest : Text) : Prop :=
  read c (rest.take (lexeme.length - 1)) = lexeme.alone

theorem alone_of_kind {lexeme : Lexeme} (other : lexeme.kind ≠ .function) : lexeme.alone = lexeme := by
  rw [alone, TokenKind.alone_eq other]

section Quoted

theorem string_kind (rest : Text) : (string rest).kind = .string := by
  unfold string
  split <;> rfl

theorem string_take (rest : Text) : string (rest.take ((string rest).length - 1)) = string rest := by
  cases closed : stringRest? rest with
  | some length => simp [string, closed, stringRest?_take closed]
  | none => simp [string, closed]

theorem string_standsAlone : (string rest).StandsAlone '"' rest := by
  rw [StandsAlone, alone_of_kind (by simp [string_kind])]
  simp only [read, if_true, string_take]

end Quoted

section Groups

variable {openerLength : Nat}

/-- A group in what a group took of a text is the same group. -/
theorem group_tokenText (kind : TokenKind) (opening closing : Char) (positive : 0 < openerLength)
    (inside : openerLength ≤ (c :: rest).length) :
    group kind opening closing ((group kind opening closing (c :: rest) openerLength).tokenText c rest)
      openerLength = group kind opening closing (c :: rest) openerLength := by
  have reach := openerLength_le_group kind opening closing inside
  rw [tokenText_eq_take (by omega)]
  cases span : Text.matchingSpan (c :: rest) opening closing openerLength with
  | some contents => simp only [group, span, Text.matchingSpan_take span]
  | none => simp only [group, span, List.take_length]

theorem read_brace (rest : Text) : read '{' rest = group .reference '{' '}' ('{' :: rest) 1 := by
  simp [read]

theorem parentheses_standsAlone : (read '(' rest).StandsAlone '(' rest := by
  rw [StandsAlone, read_parenthesis, read_parenthesis, alone_of_kind (by simp [group_kind])]
  exact group_tokenText _ _ _ Nat.one_pos (by simp)

theorem brace_standsAlone : (read '{' rest).StandsAlone '{' rest := by
  rw [StandsAlone, read_brace, read_brace, alone_of_kind (by simp [group_kind])]
  exact group_tokenText _ _ _ Nat.one_pos (by simp)

/-- The group that an opener opens. -/
def opened (opener : Opener) (text : Text) : Lexeme :=
  match opener.kind with
  | .replacement => group .reference '{' '}' text opener.length
  | .multireplace => { group .unknown '{' '}' text opener.length with problem := some .multireplace }

theorem read_opener {opener : Opener} (found : Opener.at? (c :: rest) = some opener) :
    read c rest = opened opener (c :: rest) := by
  have sign : c = '$' ∨ c = '@' := by
    unfold Opener.at? at found
    split at found
    · rename_i same
      exact .inl (List.cons.inj same).1
    · rename_i same
      exact .inr (List.cons.inj same).1
    · cases found
  obtain ⟨kind, length⟩ := opener
  have quote : c ≠ '"' ∧ c ≠ '(' ∧ c ≠ '{' := by
    cases sign with
    | inl same => subst same; decide
    | inr same => subst same; decide
  simp only [read, quote.1, quote.2.1, quote.2.2, if_false, found]
  cases kind <;> rfl

theorem opener_standsAlone {opener : Opener} (found : Opener.at? (c :: rest) = some opener) :
    (read c rest).StandsAlone c rest := by
  obtain ⟨long, inside⟩ := Opener.two_le_length_of_at? found
  rw [StandsAlone, read_opener found]
  obtain ⟨kind, length⟩ := opener
  cases kind with
  | replacement =>
      have again := (at?_group .reference found).1
      have same := group_tokenText .reference '{' '}' (by omega) inside
      rw [opened, alone_of_kind (by simp [group_kind]), read_opener again, opened]
      exact same
  | multireplace =>
      have again := (at?_group .unknown found).1
      have same := group_tokenText .unknown '{' '}' (by omega) inside
      rw [opened, alone_of_kind (by simp [group_kind]), read_opener again, opened]
      simp only [tokenText] at same
      simp only [same]

end Groups

section Plain

/-- A text that starts with no quote and with no group. -/
structure Plain (c : Char) (rest : Text) : Prop where
  noQuote : c ≠ '"'
  noParenthesis : c ≠ '('
  noBrace : c ≠ '{'
  noOpener : Opener.at? (c :: rest) = none

variable (plain : Plain c rest)

theorem Plain.take (plain : Plain c rest) (length : Nat) : Plain c (rest.take length) where
  noQuote := plain.noQuote
  noParenthesis := plain.noParenthesis
  noBrace := plain.noBrace
  noOpener := by
    cases found : Opener.at? (c :: rest.take length) with
    | none => rfl
    | some opener =>
        have later := Opener.at?_append found (rest.drop length)
        rw [List.cons_append, List.take_append_drop, plain.noOpener] at later
        cases later

/-- The number at the head of a text that starts with a digit. -/
def number (text : Text) : Lexeme :=
  { kind := .number
    length := (text.takeWhile Text.isDecimal).length +
      fractionLength (text.drop (text.takeWhile Text.isDecimal).length) }

/-- The word at the head of a text that starts with a word character. -/
def word (text : Text) : Lexeme :=
  { kind := wordKind (String.ofList (text.takeWhile Text.isWord))
      (text.drop (text.takeWhile Text.isWord).length)
    length := (text.takeWhile Text.isWord).length }

/-- The operator or the unknown characters at the head of any other text. -/
def sign (text : Text) : Lexeme :=
  match symbolicOperator? text with
  | some operator => { kind := .operator, length := operator.length }
  | none => {
      kind := .unknown
      length := max 1 (text.takeWhile (!endsUnknown ·)).length
      problem := some .unknownOperator }

theorem Plain.read_eq (plain : Plain c rest) : read c rest =
    if Text.isDecimal c then number (c :: rest)
    else if Text.isWord c then word (c :: rest)
    else sign (c :: rest) := by
  simp only [read, plain.noQuote, plain.noParenthesis, plain.noBrace, plain.noOpener, if_false]
  cases digit : Text.isDecimal c with
  | true => simp [digit, number]
  | false =>
  have noDigits : (c :: rest).takeWhile Text.isDecimal = [] := by simp [digit]
  cases letter : Text.isWord c with
  | true => simp [noDigits, letter, word]
  | false =>
      have noWord : (c :: rest).takeWhile Text.isWord = [] := by simp [letter]
      simp only [noDigits, noWord, ne_eq, not_true_eq_false, Bool.false_eq_true, if_false]
      rfl

theorem fractionLength_take (text : Text) :
    fractionLength (text.take (fractionLength text)) = fractionLength text := by
  fun_cases fractionLength text with
  | case1 => rfl
  | case2 rest some =>
      have again : (rest.take (rest.takeWhile Text.isDecimal).length).takeWhile Text.isDecimal =
          rest.takeWhile Text.isDecimal := Text.takeWhile_take (Nat.le_refl _)
      simp only [List.take_succ_cons, fractionLength, again]
  | case3 => rfl

theorem number_take (text : Text) : number (text.take (number text).length) = number text := by
  have digits : (text.take (number text).length).takeWhile Text.isDecimal =
      text.takeWhile Text.isDecimal := Text.takeWhile_take (Nat.le_add_right _ _)
  rw [number, digits, List.drop_take, number, Nat.add_sub_cancel_left, fractionLength_take]

theorem wordKind_nil (word : String) (after : Text) : wordKind word [] = (wordKind word after).alone := by
  unfold wordKind
  repeat' split
  all_goals simp_all [TokenKind.alone]

theorem word_take (text : Text) : word (text.take (word text).length) = (word text).alone := by
  have again : (text.take (word text).length).takeWhile Text.isWord = text.takeWhile Text.isWord :=
    Text.takeWhile_take (Nat.le_refl _)
  have behind : (text.take (word text).length).drop (text.takeWhile Text.isWord).length = [] := by
    rw [List.drop_take, word, Nat.sub_self, List.take_zero]
  rw [word, again, behind, wordKind_nil _ (text.drop (text.takeWhile Text.isWord).length)]
  rfl

theorem symbolicOperator?_self :
    ∀ operator ∈ Vocabulary.symbolicOperators, symbolicOperator? operator.toList = some operator := by
  decide

/-- An operator is the head of the text that it is read off. -/
theorem take_of_symbolicOperator? {text : Text} {operator : String}
    (found : symbolicOperator? text = some operator) :
    operator ∈ Vocabulary.symbolicOperators ∧ text.take operator.length = operator.toList := by
  have begins : operator.toList.isPrefixOf text = true := List.find?_some
    (p := fun operator : String => operator.toList.isPrefixOf text) found
  exact ⟨List.mem_of_find?_eq_some found,
    (List.prefix_iff_eq_take.1 (List.isPrefixOf_iff_prefix.1 begins)).symm⟩

theorem symbolicOperator?_take {text : Text} (none : symbolicOperator? text = none) (length : Nat) :
    symbolicOperator? (text.take length) = Option.none := by
  apply List.find?_eq_none.2
  intro operator known begins
  have whole := (List.isPrefixOf_iff_prefix.1 begins).trans (List.take_prefix length text)
  exact List.find?_eq_none.1 none operator known (List.isPrefixOf_iff_prefix.2 whole)

theorem sign_take (text : Text) : sign (text.take (sign text).length) = sign text := by
  cases found : symbolicOperator? text with
  | some operator =>
      obtain ⟨known, cut⟩ := take_of_symbolicOperator? found
      simp only [sign, found, cut, symbolicOperator?_self operator known]
  | none =>
      have run : (text.take (max 1 (text.takeWhile (!endsUnknown ·)).length)).takeWhile
          (!endsUnknown ·) = text.takeWhile (!endsUnknown ·) := Text.takeWhile_take (Nat.le_max_right _ _)
      simp only [sign, found, symbolicOperator?_take found, run]

theorem length_pos_of_symbolicOperator :
    ∀ operator ∈ Vocabulary.symbolicOperators, 0 < operator.length := by
  decide

theorem Plain.length_pos (plain : Plain c rest) : 0 < (read c rest).length := by
  rw [plain.read_eq]
  cases digit : Text.isDecimal c with
  | true =>
      simp only [if_true, number, List.takeWhile_cons, digit, List.length_cons]
      omega
  | false =>
  cases letter : Text.isWord c with
  | true => simp [letter, word]
  | false =>
      simp only [Bool.false_eq_true, if_false, sign]
      cases found : symbolicOperator? (c :: rest) with
      | some operator => exact length_pos_of_symbolicOperator operator (take_of_symbolicOperator? found).1
      | none => exact Nat.le_max_left _ _

theorem Plain.standsAlone (plain : Plain c rest) : (read c rest).StandsAlone c rest := by
  have cut : c :: rest.take ((read c rest).length - 1) = (c :: rest).take (read c rest).length :=
    tokenText_eq_take plain.length_pos
  rw [StandsAlone, (plain.take _).read_eq, cut, plain.read_eq]
  cases digit : Text.isDecimal c with
  | true =>
      simp only [if_true, number_take]
      exact (alone_of_kind (by simp [number])).symm
  | false =>
  cases letter : Text.isWord c with
  | true => simp only [Bool.false_eq_true, if_false, if_true, word_take]
  | false =>
      simp only [Bool.false_eq_true, if_false, sign_take]
      refine (alone_of_kind ?_).symm
      unfold sign
      split <;> simp

end Plain

/-- No lexeme needs what follows it, but for the name of a function. -/
theorem read_standsAlone (c : Char) (rest : Text) : (read c rest).StandsAlone c rest := by
  by_cases quote : c = '"'
  · subst quote
    exact string_standsAlone
  by_cases parenthesis : c = '('
  · subst parenthesis
    exact parentheses_standsAlone
  by_cases brace : c = '{'
  · subst brace
    exact brace_standsAlone
  cases found : Opener.at? (c :: rest) with
  | some opener => exact opener_standsAlone found
  | none => exact Plain.standsAlone ⟨quote, parenthesis, brace, found⟩

/-- Word characters up to a character that is none are one word, or start with a number. -/
theorem read_word {after : Text} (letters : ∀ d ∈ c :: rest, Text.isWord d = true)
    (stops : ∀ d ∈ after.head?, Text.isWord d = false) :
    (Text.isDecimal c = true → (read c (rest ++ after)).kind = .number) ∧
    (Text.isDecimal c = false → read c (rest ++ after) =
      { kind := wordKind (String.ofList (c :: rest)) after, length := rest.length + 1 }) := by
  have letter : Text.isWord c = true := letters c List.mem_cons_self
  have other (d : Char) (noWord : Text.isWord d = false) : c ≠ d := by
    rintro rfl
    simp [noWord] at letter
  have plain : Plain c (rest ++ after) := by
    refine ⟨other '"' (by decide), other '(' (by decide), other '{' (by decide), ?_⟩
    unfold Opener.at?
    split
    · rename_i same
      exact absurd (List.cons.inj same).1 (other '$' (by decide))
    · rename_i same
      exact absurd (List.cons.inj same).1 (other '@' (by decide))
    · rfl
  have taken : (c :: (rest ++ after)).takeWhile Text.isWord = c :: rest :=
    Text.takeWhile_exact letters stops
  rw [plain.read_eq]
  refine ⟨fun digit => by simp [digit, number], fun noDigit => ?_⟩
  simp [noDigit, letter, word, taken]

end Lexeme

namespace Lexed

/-- The text of a token is read as one token, wherever it stands. -/
theorem readFrom_tokenText {offset : Nat} {text : Text} {found : Lexed}
    (member : found ∈ readFrom offset text) (place : Nat) :
    readFrom place found.token.text =
      [⟨⟨found.token.kind.alone, found.token.text, place⟩, found.problem⟩] := by
  fun_induction readFrom offset text with
  | case1 => cases member
  | case2 offset c rest isBlank ih => exact ih member
  | case3 offset c rest notBlank lexeme token ih =>
      cases member with
      | tail _ later => exact ih later
      | head =>
          have again : Lexeme.read c (rest.take (lexeme.length - 1)) = lexeme.alone :=
            Lexeme.read_standsAlone c rest
          rw [readFrom, if_neg notBlank, again]
          simp [token, Lexeme.alone, readFrom, List.take_take]

end Lexed

namespace Token

/-- A call that is merged is a function with its arguments, which stand among the tokens. -/
theorem Applied.exists_call {tokens : List Token} (applied : Applied tokens) {token : Token}
    (member : token ∈ combine tokens) (call : token.kind = .call) :
    ∃ function arguments, arguments ∈ tokens ∧ arguments.kind = .parentheses ∧
      arguments.text.head? = some '(' ∧ function ∈ Vocabulary.functions ∧
      token.text = function.toList ++ arguments.text := by
  induction applied with
  | nil => cases member
  | @call function arguments tokens isCall known opens later ih =>
      rw [combine_call isCall] at member
      cases member with
      | head =>
          refine ⟨function.name, arguments, by simp, (isCallOf_iff.1 isCall).2.1, opens, known, ?_⟩
          simp [Token.call, name]
      | tail _ further =>
          obtain ⟨name, group, present, rest⟩ := ih further
          exact ⟨name, group, by simp [present], rest⟩
  | other noFunction noCall later ih =>
      rw [combine_other noFunction] at member
      cases member with
      | head => exact absurd call noCall
      | tail _ further =>
          obtain ⟨name, group, present, rest⟩ := ih further
          exact ⟨name, group, by simp [present], rest⟩

end Token

/-- The error, with offsets that count from further on. -/
def LexError.back (error : LexError) (distance : Nat) : LexError :=
  ⟨error.problem, error.start - distance, error.stop - distance⟩

namespace Expression

variable {text : Text} {globalIndex : Int} {token : Token}

/-- The errors that start in a token are its own. -/
theorem Aligned.errorsBetween_self {expression : Expression} (aligned : expression.Aligned)
    (member : token ∈ expression.tokens) :
    Token.errorsBetween token token expression.errors = token.error?.toList := by
  obtain ⟨before, after, whole⟩ := List.append_of_mem member
  have parts : expression.tokens = before ++ [token] ++ after := by simp [whole]
  have nonempty := aligned.nonempty
  have ordered := aligned.ordered
  rw [aligned.errors]
  rw [parts] at nonempty ordered ⊢
  rw [Token.errorsBetween_eq nonempty ordered (show [token].head? = some token from rfl)
    (show [token].getLast? = some token from rfl)]
  cases found : token.error? <;> simp [found]

theorem ofText_token (member : token ∈ (ofText text globalIndex).tokens) (place : Int) :
    (ofText token.text place).tokens = [⟨token.kind.alone, token.text, 0⟩] ∧
      (ofText token.text place).errors =
        (Token.errorsBetween token token (ofText text globalIndex).errors).map (·.back token.start) := by
  have own := (ofText_aligned text globalIndex).errorsBetween_self member
  obtain ⟨found, present, rfl⟩ := List.mem_map.1 member
  have alone := Lexed.readFrom_tokenText present 0
  refine ⟨by simp [ofText, lexed, alone], ?_⟩
  rw [own]
  have problem := Lexed.problem_of_mem_readFrom present
  simp only [ofText, lexed, alone, problem, Token.error?]
  cases found.token.problem? <;> simp [Lexed.error?, LexError.back, Token.stop]

/-- The name of a function is a word that starts with no digit, and nothing else is known by it. -/
theorem function_spelling : ∀ name ∈ Vocabulary.functions,
    name.toList.all Text.isWord = true ∧ name.toList.head?.any (!Text.isDecimal ·) = true ∧
      Vocabulary.booleanOperators.contains name = false ∧
      Vocabulary.numberOperators.contains name = false ∧
      Vocabulary.booleanValues.contains name = false := by
  decide +kernel

/-- The name of a function before an open parenthesis is read as one. -/
theorem readFrom_function {name : String} (known : name ∈ Vocabulary.functions) {arguments : Text}
    (opens : arguments.head? = some '(') : lexed (name.toList ++ arguments) =
      ⟨⟨.function, name.toList, 0⟩, none⟩ :: Lexed.readFrom name.toList.length arguments := by
  obtain ⟨letters, first, noJunction, noOperator, noValue⟩ := function_spelling name known
  cases spelled : name.toList with
  | nil => simp [spelled] at first
  | cons c rest =>
      rw [spelled] at letters first
      have word := List.all_eq_true.1 letters
      have noDigit : Text.isDecimal c = false := by simpa using first
      have stops : ∀ d ∈ arguments.head?, Text.isWord d = false := by
        intro d head
        rw [opens, Option.mem_some_iff] at head
        subst head
        decide
      have kind : Lexeme.wordKind (String.ofList (c :: rest)) arguments = .function := by
        rw [← spelled, String.ofList_toList, Lexeme.wordKind, noJunction, noOperator, noValue]
        simp [known, opens]
      have solid := Text.isBlank_eq_false_of_isWord (word c List.mem_cons_self)
      rw [List.cons_append, lexed_cons solid, (Lexeme.read_word word stops).2 noDigit, kind]
      simp [Lexeme.tokenText]

theorem ofText_call {token : Token} (member : token ∈ (ofText text globalIndex).combined)
    (call : token.kind = .call) (place : Int) : ∃ name arguments, token.text = name ++ arguments ∧
      (ofText token.text place).tokens =
        [⟨.function, name, 0⟩, ⟨.parentheses, arguments, name.length⟩] ∧
      (ofText token.text place).errors = [] := by
  obtain ⟨function, arguments, present, kind, opens, known, spelled⟩ :=
    (Lexed.readFrom_applied 0 text).exists_call member call
  obtain ⟨found, among, rfl⟩ := List.mem_map.1 present
  have group := Lexed.readFrom_tokenText among function.toList.length
  have problem := Lexed.problem_of_mem_readFrom among
  simp only [Token.problem?, kind] at problem
  rw [kind, problem] at group
  refine ⟨function.toList, found.token.text, spelled, ?_⟩
  rw [spelled]
  simp [ofText, readFrom_function known opens, group, TokenKind.alone, Lexed.error?]

/-- The text of a token that is no function name is read as the same token, and its errors are those of
the token. The name of a function alone is read as that of a variable, and a call as the name of a
function and its arguments. -/
theorem tokens_stand_alone (text : Text) (globalIndex place : Int) :
    (∀ token ∈ (ofText text globalIndex).tokens, token.kind ≠ .function →
      (ofText token.text place).tokens = [{ token with start := 0 }] ∧
      (ofText token.text place).errors =
        (Token.errorsBetween token token (ofText text globalIndex).errors).map (·.back token.start)) ∧
    (∀ token ∈ (ofText text globalIndex).tokens, token.kind = .function →
      (ofText token.text place).tokens = [⟨.variableName, token.text, 0⟩] ∧
      (ofText token.text place).errors = []) ∧
    ∀ token ∈ (ofText text globalIndex).combined, token.kind = .call →
      ∃ name arguments, token.text = name ++ arguments ∧
        (ofText token.text place).tokens =
          [⟨.function, name, 0⟩, ⟨.parentheses, arguments, name.length⟩] ∧
        (ofText token.text place).errors = [] := by
  refine ⟨fun token member other => ?_, fun token member function => ?_, fun token member call => ?_⟩
  · have read := ofText_token member place
    rwa [TokenKind.alone_eq other] at read
  · obtain ⟨read, errors⟩ := ofText_token member place
    rw [function] at read
    rw [(ofText_aligned text globalIndex).errorsBetween_self member] at errors
    exact ⟨read, by simp [errors, Token.error?, Token.problem?, function]⟩
  · exact ofText_call member call place

/-- A call, a number before a dot, unknown characters before an operator, groups with their signs, and a
string that is not closed. -/
def crowdedLine : Text := "not(a) 1.5. #!<= $!\x7bb\x7d @!\x7bc\x7d \"d".toList

theorem crowdedLine_stands_alone :
    (⟨.unknown, "#!".toList, 12⟩ ∈ (ofText crowdedLine 0).tokens ∧
      (ofText "#!".toList 3).tokens = [⟨.unknown, "#!".toList, 0⟩] ∧
      (ofText "#!".toList 3).errors =
        (Token.errorsBetween ⟨.unknown, "#!".toList, 12⟩ ⟨.unknown, "#!".toList, 12⟩
          (ofText crowdedLine 0).errors).map (·.back 12)) ∧
    (⟨.function, "not".toList, 0⟩ ∈ (ofText crowdedLine 0).tokens ∧
      (ofText "not".toList 3).tokens = [⟨.variableName, "not".toList, 0⟩] ∧
      (ofText "not".toList 3).errors = []) ∧
    ⟨.call, "not(a)".toList, 0⟩ ∈ (ofText crowdedLine 0).combined ∧
      ∃ name arguments, "not(a)".toList = name ++ arguments ∧
        (ofText "not(a)".toList 3).tokens =
          [⟨.function, name, 0⟩, ⟨.parentheses, arguments, name.length⟩] ∧
        (ofText "not(a)".toList 3).errors = [] := by
  have unknown : ⟨.unknown, "#!".toList, 12⟩ ∈ (ofText crowdedLine 0).tokens := by decide +kernel
  have function : ⟨.function, "not".toList, 0⟩ ∈ (ofText crowdedLine 0).tokens := by decide +kernel
  have call : ⟨.call, "not(a)".toList, 0⟩ ∈ (ofText crowdedLine 0).combined := by decide +kernel
  obtain ⟨others, functions, calls⟩ := tokens_stand_alone crowdedLine 0 3
  exact ⟨⟨unknown, others _ unknown (by decide)⟩, ⟨function, functions _ function rfl⟩,
    call, calls _ call rfl⟩

end Expression

end ChoiceScript
