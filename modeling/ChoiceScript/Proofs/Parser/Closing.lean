import ChoiceScript.Proofs.Expression.Tiling
import ChoiceScript.Proofs.Parser.Progress

/-! # Readers end where tokens end

The end of a nested construct is found twice: by the lexer, in the text around the construct, and by
the reader of the construct, in the text of its token. For groups both count delimiters, and a token
holds all that the lexer counted. For strings the lexer lets a backslash take the next character with
it, while the reader only looks for a backslash before a quote; but a quote that the lexer passes over
was taken by a backslash, so the reader does not stop at it.
-/

namespace ChoiceScript

namespace Lexeme

variable {c : Char} {rest : Text}

/-- What the lexeme of a nested construct is, by its kind. -/
structure Opens (lexeme : Lexeme) (c : Char) (rest : Text) : Prop where
  string : lexeme.kind = .string → c = '"' ∧ lexeme = Lexeme.string rest
  parentheses : lexeme.kind = .parentheses → lexeme = group .parentheses '(' ')' (c :: rest) 1
  reference : lexeme.kind = .reference → ∃ openerLength, 0 < openerLength ∧
    ((lexeme.tokenText c rest).takeWhile (· ≠ '{')).length + 1 = openerLength ∧
    lexeme = group .reference '{' '}' (c :: rest) openerLength

theorem opens_of_kind {lexeme : Lexeme} (noString : lexeme.kind ≠ .string)
    (noParentheses : lexeme.kind ≠ .parentheses) (noReference : lexeme.kind ≠ .reference) :
    lexeme.Opens c rest :=
  ⟨fun same => absurd same noString, fun same => absurd same noParentheses,
    fun same => absurd same noReference⟩

theorem reference_opens {openerLength : Nat} (positive : 0 < openerLength)
    (starts : (((group .reference '{' '}' (c :: rest) openerLength).tokenText c rest).takeWhile
      (· ≠ '{')).length + 1 = openerLength) :
    (group .reference '{' '}' (c :: rest) openerLength).Opens c rest :=
  ⟨fun same => by simp [group_kind] at same, fun same => by simp [group_kind] at same,
    fun _ => ⟨_, positive, starts, rfl⟩⟩

theorem read_opens (c : Char) (rest : Text) : (read c rest).Opens c rest := by
  unfold read
  dsimp only
  split
  · rename_i quote
    have kind : (Lexeme.string rest).kind = .string := by
      unfold Lexeme.string
      split <;> rfl
    exact ⟨fun _ => ⟨quote, rfl⟩, fun same => by simp [kind] at same,
      fun same => by simp [kind] at same⟩
  split
  · exact ⟨fun same => by simp [group_kind] at same, fun _ => rfl,
      fun same => by simp [group_kind] at same⟩
  split
  · rename_i brace
    subst brace
    exact reference_opens Nat.one_pos (by simp [tokenText])
  split
  · rename_i length found
    have long := (Opener.two_le_length_of_at? found).1
    simp only at long
    exact reference_opens (by omega) (at?_group .reference found).2
  · exact opens_of_kind (by simp [group_kind]) (by simp [group_kind]) (by simp [group_kind])
  split
  · exact opens_of_kind (by simp) (by simp) (by simp)
  split
  · obtain ⟨noString, noParentheses, noReference, -⟩ := wordKind_plain _ _
    exact opens_of_kind noString noParentheses noReference
  split <;> exact opens_of_kind (by simp) (by simp) (by simp)

end Lexeme

/-- A token is the lexeme at its place in the text. -/
theorem Lexed.exists_lexeme {offset : Nat} {text : Text} {lexed : Lexed}
    (member : lexed ∈ readFrom offset text) :
    ∃ skipped c rest, lexed.token.start = offset + skipped ∧ text.drop skipped = c :: rest ∧
      lexed.token = (Lexeme.read c rest).token c rest lexed.token.start := by
  fun_induction readFrom offset text with
  | case1 => cases member
  | case2 offset c rest isBlank ih =>
      obtain ⟨skipped, first, later, start, cut, same⟩ := ih member
      exact ⟨skipped + 1, first, later, by omega, cut, same⟩
  | case3 offset c rest notBlank lexeme token ih =>
      rcases List.mem_cons.1 member with rfl | present
      · exact ⟨0, c, rest, rfl, rfl, rfl⟩
      · obtain ⟨skipped, first, later, start, cut, same⟩ := ih present
        refine ⟨min (lexeme.length - 1) rest.length + 1 + skipped, first, later, ?_, ?_, same⟩
        · simp only [start, Token.stop, token, List.length_cons, List.length_take]
          omega
        · rw [← cut, ← List.drop_drop, List.drop_succ_cons, ← List.drop_eq_drop_min]

namespace Text

variable {text contents : Text} {opening closing : Char} {start skipped : Nat}

/-- A span in what is left of a text is one in the text, further right. -/
theorem matchingSpan_drop :
    matchingSpan (text.drop skipped) opening closing start =
      matchingSpan text opening closing (skipped + start) := by
  rw [matchingSpan, List.drop_drop, matchingSpan]

end Text

namespace Token

variable {text : Text} {index : Int} {token : Token}

/-- A group is closed in its token exactly where the lexer closed it in the text, and ends there. -/
structure ClosesAsIn (token : Token) (text : Text) (opening closing : Char) (openerLength : Nat) :
    Prop where
  span : Text.matchingSpan token.text opening closing openerLength =
    Text.matchingSpan text opening closing (token.start + openerLength)
  length : ∀ contents, Text.matchingSpan token.text opening closing openerLength = some contents →
    openerLength + contents.length + 1 = token.text.length

theorem group_closesAsIn {kind : TokenKind} {opening closing : Char} {openerLength skipped : Nat}
    {c : Char} {rest : Text} (cut : text.drop skipped = c :: rest)
    (start : token.start = skipped)
    (same : token.text = (Lexeme.group kind opening closing (c :: rest) openerLength).tokenText c rest) :
    token.ClosesAsIn text opening closing openerLength := by
  have whole : Text.matchingSpan text opening closing (token.start + openerLength) =
      Text.matchingSpan (c :: rest) opening closing openerLength := by
    rw [← cut, Text.matchingSpan_drop, start]
  unfold Lexeme.group at same
  cases span : Text.matchingSpan (c :: rest) opening closing openerLength with
  | none =>
      rw [span] at same whole
      have text : token.text = c :: rest := by simp [same, Lexeme.tokenText]
      exact ⟨by rw [text, span, whole], fun contents found => by rw [text, span] at found; cases found⟩
  | some contents =>
      rw [span] at whole
      simp only [span] at same
      rw [Lexeme.tokenText_eq_take (Nat.succ_pos _)] at same
      have again := Text.matchingSpan_take span
      have fits := Text.length_lt_of_matchingSpan span
      refine ⟨by rw [same, again, whole], fun other found => ?_⟩
      rw [same, again, Option.some.injEq] at found
      subst found
      simp only [same, List.length_take]
      omega

end Token

namespace Text

/-- Every quote behind the first character is the last character or stands after a backslash. -/
def Guarded (text : Text) : Prop :=
  ∀ i, text[i + 1]? = some '"' → i + 2 = text.length ∨ text[i]? = some '\\'

end Text

namespace Lexeme

/-- A quote ends a string, or stands after the end of it, or was taken by a backslash. -/
theorem stringRest?_quote {text : Text} {i : Nat} (quote : text[i]? = some '"') :
    (∃ length, stringRest? text = some length ∧ length ≤ i + 1) ∨
      ∃ j, i = j + 1 ∧ text[j]? = some '\\' := by
  fun_induction stringRest? text generalizing i with
  | case1 => simp at quote
  | case2 => exact .inl ⟨1, rfl, by omega⟩
  | case3 escaped rest ih =>
      rcases i with _ | _ | i
      · simp at quote
      · exact .inr ⟨0, rfl, rfl⟩
      · rcases ih (i := i) quote with ⟨length, closed, le⟩ | ⟨j, rfl, backslash⟩
        · exact .inl ⟨length + 2, by simp [closed], by omega⟩
        · exact .inr ⟨j + 2, rfl, backslash⟩
  | case4 c rest noQuote noEscape ih =>
      cases i with
      | zero => exact absurd (by simpa using quote) (noQuote · )
      | succ i =>
          rcases ih (i := i) quote with ⟨length, closed, le⟩ | ⟨j, rfl, backslash⟩
          · exact .inl ⟨length + 1, by simp [closed], by omega⟩
          · exact .inr ⟨j + 1, rfl, backslash⟩

/-- In the token of a string the lexer has passed over all quotes but the last character. -/
theorem string_guarded (rest : Text) : Text.Guarded ((string rest).tokenText '"' rest) := by
  intro i quote
  unfold string at quote ⊢
  cases closed : stringRest? rest with
  | none =>
      simp only [closed, tokenText, Nat.add_sub_cancel, List.take_length, List.getElem?_cons_succ]
        at quote ⊢
      rcases stringRest?_quote quote with ⟨length, found, -⟩ | ⟨j, rfl, backslash⟩
      · rw [closed] at found
        cases found
      · exact .inr backslash
  | some length =>
      simp only [closed, tokenText, Nat.add_sub_cancel, List.getElem?_cons_succ] at quote ⊢
      obtain ⟨here, quote⟩ : i < length ∧ rest[i]? = some '"' := by
        simpa [List.getElem?_take] using quote
      have inside := (List.getElem?_eq_some_iff.1 quote).1
      rcases stringRest?_quote quote with ⟨other, found, le⟩ | ⟨j, rfl, backslash⟩
      · rw [closed, Option.some.injEq] at found
        left
        simp only [List.length_cons, List.length_take]
        omega
      · right
        rw [List.getElem?_cons_succ, List.getElem?_take_of_lt (by omega)]
        exact backslash

end Lexeme

/-- A quote that ends a stretch of plain text stands after no backslash. -/
theorem StringMark.quote_of_seek {escaped : Bool} {text : Text} {skipped : Nat}
    (found : seek escaped text = some (skipped, .quote)) :
    text[skipped]? = some '"' ∧ (skipped = 0 → escaped = false) ∧
      ∀ i, skipped = i + 1 → text[i]? ≠ some '\\' := by
  induction text generalizing skipped escaped with
  | nil => simp [seek] at found
  | cons c rest ih =>
      simp only [seek] at found
      split at found
      · cases found
      split at found
      · rename_i quote
        cases found
        simp only [Bool.and_eq_true, decide_eq_true_eq, Bool.not_eq_true'] at quote
        exact ⟨by simp [quote.1], fun _ => quote.2, fun i impossible => by omega⟩
      · obtain ⟨⟨before, mark⟩, later, same⟩ := Option.map_eq_some_iff.1 found
        obtain ⟨rfl, rfl⟩ := Prod.mk.inj same
        obtain ⟨here, first, further⟩ := ih later
        refine ⟨here, fun impossible => by omega, fun i next => ?_⟩
        obtain rfl : before = i := by omega
        cases before with
        | zero => simpa using first rfl
        | succ before => simpa using further before rfl

namespace Opening

/-- The reader of a string stops at the end of a text in which the quotes before are guarded. -/
theorem inString_guarded {text : Text} {start : Nat} (guarded : text.Guarded) (first : 0 < start)
    (inside : start ≤ text.length) : (inString text start).2 = text.length := by
  fun_induction inString text start with
  | case1 => rfl
  | case2 start skipped found =>
      obtain ⟨quote, unescaped, plain⟩ := StringMark.quote_of_seek found
      rw [List.getElem?_drop] at quote
      obtain ⟨i, last⟩ : ∃ i, start + skipped = i + 1 := ⟨start + skipped - 1, by omega⟩
      rw [last] at quote
      -- a backslash before the quote would stand in what is left of the text, or right before it
      rcases guarded i quote with final | backslash
      · simp only
        omega
      · cases skipped with
        | zero =>
            obtain rfl : start = i + 1 := last
            have escaped : afterBackslash text (i + 1) = true := by
              rw [afterBackslash, List.getLast?_eq_getElem?, List.length_take, Nat.min_eq_left inside,
                Nat.add_sub_cancel, List.getElem?_take_of_lt (Nat.lt_succ_self i), backslash]
              rfl
            rw [unescaped rfl] at escaped
            cases escaped
        | succ skipped =>
            refine absurd ?_ (plain skipped rfl)
            rw [List.getElem?_drop, ← backslash]
            congr 1
            omega
  | case3 start skipped opener found opening openings stop rest ih =>
      have fits := seek_bound found
      rw [List.length_drop] at fits
      have contents : opening.contents ≤ text.length := by
        simp only [Opening.contents, opening]
        omega
      have further : start + skipped ≤ opening.resume text := start_le_resume text opening
      simp only [rest] at ih
      exact ih (by omega) (resume_le contents)

end Opening

namespace Token

variable {text : Text} {index : Int} {token : Token}

theorem closes_parentheses (member : token ∈ (Expression.ofText text index).tokens)
    (kind : token.kind = .parentheses) : token.ClosesAsIn text '(' ')' 1 := by
  obtain ⟨lexed, present, rfl⟩ := List.mem_map.1 member
  obtain ⟨skipped, c, rest, start, cut, same⟩ := Lexed.exists_lexeme present
  have lexeme := (Lexeme.read_opens c rest).parentheses (by rw [same] at kind; exact kind)
  rw [lexeme] at same
  exact group_closesAsIn cut (by omega) (congrArg Token.text same)

theorem closes_reference (member : token ∈ (Expression.ofText text index).tokens)
    (kind : token.kind = .reference) : token.ClosesAsIn text '{' '}' token.contentsStart := by
  obtain ⟨lexed, present, rfl⟩ := List.mem_map.1 member
  obtain ⟨skipped, c, rest, start, cut, same⟩ := Lexed.exists_lexeme present
  obtain ⟨openerLength, -, starts, lexeme⟩ :=
    (Lexeme.read_opens c rest).reference (by rw [same] at kind; exact kind)
  have opener : lexed.token.contentsStart = openerLength := by
    rw [contentsStart, same]
    exact starts
  rw [lexeme] at same
  rw [opener]
  exact group_closesAsIn cut (by omega) (congrArg Token.text same)

theorem guarded_string (member : token ∈ (Expression.ofText text index).tokens)
    (kind : token.kind = .string) : token.text.Guarded := by
  obtain ⟨lexed, present, rfl⟩ := List.mem_map.1 member
  obtain ⟨skipped, c, rest, -, -, same⟩ := Lexed.exists_lexeme present
  obtain ⟨rfl, lexeme⟩ := (Lexeme.read_opens c rest).string (by rw [same] at kind; exact kind)
  rw [lexeme] at same
  rw [same]
  exact Lexeme.string_guarded rest

end Token

namespace Parser

variable {source : Source} {progress : Progress} {text : Text} {origin : Int} {start : Nat}

/-- A reader reports one error of a kind and nothing else, and reading goes on. -/
def OnlyComplains (notice : Notice) (source : Source) (progress : Progress) (reader : Parser Nat) :
    Prop :=
  ∃ stop diagnostic, diagnostic.code = notice.code ∧ reader source progress =
    (.ok stop, { progress with reports := progress.reports ++ [.error diagnostic] })

theorem onlyComplains_within {notice : Notice} {element : Element} {body : Parser Unit}
    {first last : Int} {stop : Nat} (complains : body = complain notice first last [])
    (le : first ≤ last) (fit : notice.message.fits [] = true) :
    OnlyComplains notice source progress (within element do
      body
      return stop) := by
  obtain ⟨diagnostic, made⟩ : ∃ diagnostic, notice.between source.document first last [] =
      .ok diagnostic := Notice.exists_between le fit
  refine ⟨stop, diagnostic, Notice.code_of_between made, ?_⟩
  simp only [within, complains, Bind.bind, complain, made, report]
  rfl

section Groups

variable {openLength : Nat} (inside : start ≤ text.length)

include inside

theorem parentheses_onlyComplains (unclosed : Text.matchingSpan text '(' ')' start = none) :
    OnlyComplains .parenthesesUnclosed source progress (parentheses text origin start) := by
  have complains : parenthesesContents text (descent text.length) origin start =
      complainUnclosed .parenthesesUnclosed text 1 origin start := by
    unfold parenthesesContents
    split
    · rfl
    · rename_i contents span
      rw [unclosed] at span
      cases span
  have le := le_lineEnd inside
  exact onlyComplains_within complains (by omega) rfl

theorem reference_onlyComplains (unclosed : Text.matchingSpan text '{' '}' start = none) :
    OnlyComplains .replacementUnclosed source progress (reference text openLength origin start) := by
  have complains : referenceContents text (descent text.length) openLength origin start =
      complainUnclosed .replacementUnclosed text openLength origin start := by
    unfold referenceContents
    split
    · rfl
    · rename_i contents span
      rw [unclosed] at span
      cases span
  have le := le_lineEnd inside
  exact onlyComplains_within complains (by omega) rfl

omit inside

theorem reference_onlyComplains_blank {contents : Text}
    (closed : Text.matchingSpan text '{' '}' start = some contents) (blank : Text.blank contents) :
    OnlyComplains .replacementEmpty source progress (reference text openLength origin start) := by
  have complains : referenceContents text (descent text.length) openLength origin start =
      complain .replacementEmpty (start - openLength + origin)
        (start + contents.length + 1 + origin) [] := by
    unfold referenceContents
    split
    · rename_i span
      rw [closed] at span
      cases span
    · rename_i other span
      obtain rfl : other = contents := Option.some.inj (span.symm.trans closed)
      rw [if_pos blank]
  exact onlyComplains_within complains (by omega) rfl

end Groups

/-- The readers of groups and strings end where the lexer has ended their tokens, wherever the text
stands and whatever was read before. A group that the lexer found closed ends with its token; one that
it did not, and a reference that holds nothing, is one error and nothing else. A string ends with its
token, closed or not. -/
theorem readers_end_with_tokens {text : Text} {index : Int} {token : Token}
    (member : token ∈ (Expression.ofText text index).tokens) (source : Source) (progress : Progress)
    (origin : Int) :
    (token.kind = .parentheses →
      match Text.matchingSpan text '(' ')' (token.start + 1) with
      | some _ => (parentheses token.text origin 1 source progress).1 = .ok token.text.length
      | none => OnlyComplains .parenthesesUnclosed source progress
          (parentheses token.text origin 1)) ∧
    (token.kind = .reference →
      let openLength := token.contentsStart
      match Text.matchingSpan text '{' '}' (token.start + openLength) with
      | some contents =>
        if Text.blank contents then
          OnlyComplains .replacementEmpty source progress
            (reference token.text openLength origin openLength)
        else
          (reference token.text openLength origin openLength source progress).1 =
            .ok token.text.length
      | none => OnlyComplains .replacementUnclosed source progress
          (reference token.text openLength origin openLength)) ∧
    (token.kind = .string → (string token.text origin 1 source progress).1 = .ok token.text.length) := by
  have stands := Expression.standsIn_of_mem_tokens member
  have long : 1 ≤ token.text.length := List.length_pos_iff.2 stands.nonempty
  refine ⟨fun kind => ?_, fun kind => ?_, fun kind => ?_⟩
  · have closes := Token.closes_parentheses member kind
    split
    · rename_i contents span
      rw [← closes.span] at span
      have goesOn := (parenthesesWith_resumes long origin).goesOn source progress
      rw [Text.resumeGroup, span] at goesOn
      rw [← closes.length contents span]
      exact goesOn
    · rename_i span
      exact parentheses_onlyComplains long (closes.span.trans span)
  · have closes := Token.closes_reference member kind
    have inside : token.contentsStart ≤ token.text.length := openLength_le (stands.brace kind)
    dsimp only
    split
    · rename_i contents span
      rw [← closes.span] at span
      split
      · rename_i blank
        exact reference_onlyComplains_blank span blank
      · rename_i filled
        have goesOn := (referenceWith_resumes inside token.contentsStart origin).goesOn source progress
        rw [Text.resumeReference, span] at goesOn
        simp only [if_neg filled] at goesOn
        rw [← closes.length contents span]
        exact goesOn
    · rename_i span
      exact reference_onlyComplains inside (closes.span.trans span)
  · have goesOn := (stringWith_resumes long origin).goesOn source progress
    rw [Opening.inString_guarded (Token.guarded_string member kind) Nat.one_pos long] at goesOn
    exact goesOn

/-- A string with a quote after a backslash, and with a reference in it that is not closed. -/
def escapedString : Token := ⟨.string, "\"a\\\" $\x7bb\"".toList, 0⟩

def blankReference : Token := ⟨.reference, "\x7b \x7d".toList, 12⟩

def openGroup : Token := ⟨.parentheses, "(c".toList, 18⟩

def unevenText : Text := "\"a\\\" $\x7bb\" & \x7b \x7d & (c".toList

theorem unevenText_ends :
    (Expression.ofText unevenText 0).tokens.filter (·.kind ≠ .operator) =
      [escapedString, blankReference, openGroup] ∧
    (string escapedString.text 0 1 nestedReference {}).1 = .ok 9 ∧
    OnlyComplains .replacementEmpty nestedReference {} (reference blankReference.text 1 12 1) ∧
    OnlyComplains .parenthesesUnclosed nestedReference {} (parentheses openGroup.text 18 1) := by
  have tokens : (Expression.ofText unevenText 0).tokens.filter (·.kind ≠ .operator) =
      [escapedString, blankReference, openGroup] := by decide +kernel
  have member {token : Token} (found : token ∈ [escapedString, blankReference, openGroup]) :
      token ∈ (Expression.ofText unevenText 0).tokens := List.mem_of_mem_filter (tokens ▸ found)
  refine ⟨tokens, ?_, ?_, ?_⟩
  · exact (readers_end_with_tokens (member (.head _)) nestedReference {} 0).2.2 rfl
  · exact (readers_end_with_tokens (member (.tail _ (.head _))) nestedReference {} 12).2.1 rfl
  · exact (readers_end_with_tokens (member (.tail _ (.tail _ (.head _)))) nestedReference {} 18).1 rfl

end Parser

end ChoiceScript
