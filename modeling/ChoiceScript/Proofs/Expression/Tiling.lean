import ChoiceScript.Proofs.Expression.Tokens
import Mathlib.Data.List.Basic

/-! # Lexing loses nothing

A text is its tokens with blanks between them, so every character that is no blank belongs to just one
token. What is wrong with a token shows in the token alone, and a group or a string that is not closed
is the last token and runs to the end of the text.
-/

namespace ChoiceScript

namespace Token

/-- Where the contents of a group in braces start. -/
def contentsStart (token : Token) : Nat := (token.text.takeWhile (· ≠ '{')).length + 1

/-- Does the token start with an opener of multireplaces? -/
def opensMultireplace (token : Token) : Bool := (Opener.multireplaceAt? token.text).isSome

/-- Is the token a group without its close delimiter, or a string without its closing quote? -/
def isUnclosed (token : Token) : Bool :=
  match token.kind with
  | .string => (Lexeme.stringRest? token.text.tail).isNone
  | .parentheses => (Text.matchingSpan token.text '(' ')' 1).isNone
  | .reference => (Text.matchingSpan token.text '{' '}' token.contentsStart).isNone
  | .unknown => token.opensMultireplace &&
      (Text.matchingSpan token.text '{' '}' token.contentsStart).isNone
  | _ => false

/-- What is wrong with a token: no operator is known by its text, or its closing quote is missing. -/
def problem? (token : Token) : Option LexProblem :=
  match token.kind with
  | .unknown => some (if token.opensMultireplace then .multireplace else .unknownOperator)
  | .string => if token.isUnclosed then some .unterminatedString else none
  | _ => none

/-- The error that spans a token, if something is wrong with it. -/
def error? (token : Token) : Option LexError :=
  token.problem?.map fun problem => ⟨problem, token.start, token.stop⟩

end Token

/-- Tokens with blanks between them make up a text that starts at an offset. A token that is not
closed is the last one. -/
inductive Tiling : Nat → Text → List Token → Prop where
  | blanks {offset : Nat} {gap : Text} (blank : Text.blank gap = true) : Tiling offset gap []
  | token {offset : Nat} {gap rest : Text} {token : Token} {tokens : List Token}
    (blank : Text.blank gap = true) (start : token.start = offset + gap.length)
    (head : ∃ c ∈ token.text.head?, Text.isBlank c = false)
    (last : token.isUnclosed = true → rest = []) (later : Tiling token.stop rest tokens) :
    Tiling offset (gap ++ token.text ++ rest) (token :: tokens)

namespace Text

/-- A span is found as well in what is left when the text after its close delimiter is cut off. -/
theorem spanToClose_take {opening closing : Char} {depth : Nat} {text span : Text}
    (found : spanToClose opening closing depth text = some span) :
    spanToClose opening closing depth (text.take (span.length + 1)) = some span := by
  fun_induction spanToClose opening closing depth text generalizing span <;> simp_all [spanToClose]
  all_goals
    rename_i ih
    obtain ⟨inner, found, rfl⟩ := found
    simp_all

theorem matchingSpan_take {opening closing : Char} {text contents : Text} {start : Nat}
    (found : matchingSpan text opening closing start = some contents) :
    matchingSpan (text.take (start + contents.length + 1)) opening closing start = some contents := by
  have cut : (text.take (start + contents.length + 1)).drop start =
      (text.drop start).take (contents.length + 1) := by
    rw [List.drop_take]
    congr 1
    omega
  rw [matchingSpan, cut]
  exact spanToClose_take found

end Text

/-- An opener is found as well in what is left when the text is cut off behind it, and it is the first
to have a brace. -/
theorem Opener.at?_take {text : Text} {opener : Opener} (found : at? text = some opener) {length : Nat}
    (long : opener.length ≤ length) :
    at? (text.take length) = some opener ∧
      ((text.take length).takeWhile (· ≠ '{')).length + 1 = opener.length := by
  obtain ⟨more, rfl⟩ := Nat.exists_eq_add_of_le long
  unfold at? bangsToBrace? at found
  split at found <;> simp only [Option.map_eq_some_iff, reduceCtorEq] at found
  all_goals
    obtain ⟨bangs, taken, rfl⟩ := found
    split at taken <;> simp only [Option.some.injEq, reduceCtorEq] at taken
    all_goals
      subst taken
      simp [at?, bangsToBrace?, Nat.add_comm _ more]

namespace Lexeme

/-- The token of a lexeme at the head of `c :: rest`, which starts at an offset. -/
def token (lexeme : Lexeme) (c : Char) (rest : Text) (offset : Nat) : Token :=
  ⟨lexeme.kind, lexeme.tokenText c rest, offset⟩

variable {c : Char} {rest : Text} {offset : Nat}

/-- The token shows its problem, and takes the whole text if it is not closed. -/
structure Shows (lexeme : Lexeme) (c : Char) (rest : Text) (offset : Nat) : Prop where
  last : (lexeme.token c rest offset).isUnclosed = true → rest.drop (lexeme.length - 1) = []
  problem : (lexeme.token c rest offset).problem? = lexeme.problem

theorem stringRest?_take {text : Text} {length : Nat} (found : stringRest? text = some length) :
    stringRest? (text.take length) = some length := by
  fun_induction stringRest? text generalizing length with
  | case1 => simp at found
  | case2 =>
    cases found
    rfl
  | case3 escaped rest ih =>
      obtain ⟨inner, closed, rfl⟩ := Option.map_eq_some_iff.1 found
      simp [stringRest?, ih closed]
  | case4 c rest noQuote noEscape ih =>
      obtain ⟨inner, closed, rfl⟩ := Option.map_eq_some_iff.1 found
      have noBackslash : c ≠ '\\' := by
        rintro rfl
        cases rest with
        | nil => simp [stringRest?] at closed
        | cons next rest => exact noEscape next rest rfl rfl
      simp [stringRest?, ih closed, noBackslash]

theorem string_shows : (string rest).Shows '"' rest offset := by
  unfold string
  split
  · rename_i length closed
    have again := stringRest?_take closed
    constructor <;> simp [token, tokenText, Token.isUnclosed, Token.problem?, again]
  · rename_i unclosed
    constructor <;> simp [token, tokenText, Token.isUnclosed, Token.problem?, unclosed]

/-- A group takes the whole text if its close delimiter does not stand in its token. -/
theorem group_last {kind : TokenKind} {opening closing : Char} {openerLength : Nat}
    (unclosed : Text.matchingSpan ((group kind opening closing (c :: rest) openerLength).tokenText c rest)
      opening closing openerLength = none) :
    rest.drop ((group kind opening closing (c :: rest) openerLength).length - 1) = [] := by
  unfold group at unclosed ⊢
  split
  · rename_i contents span
    simp only [span] at unclosed
    rw [tokenText_eq_take (Nat.succ_pos _), Text.matchingSpan_take span] at unclosed
    cases unclosed
  · simp

theorem parentheses_shows : (group .parentheses '(' ')' ('(' :: rest) 1).Shows '(' rest offset := by
  constructor
  · simp only [token, Token.isUnclosed, group_kind, Option.isNone_iff_eq_none]
    exact group_last
  · simp only [token, Token.problem?, group_kind]
    unfold group
    split <;> rfl

theorem reference_shows {openerLength : Nat}
    (starts : (((group .reference '{' '}' (c :: rest) openerLength).tokenText c rest).takeWhile
      (· ≠ '{')).length + 1 = openerLength) :
    (group .reference '{' '}' (c :: rest) openerLength).Shows c rest offset := by
  constructor
  · simp only [token, Token.isUnclosed, Token.contentsStart, group_kind, starts,
      Option.isNone_iff_eq_none]
    exact group_last
  · simp only [token, Token.problem?, group_kind]
    unfold group
    split <;> rfl

/-- The opener of a group in braces stands in its token. -/
theorem at?_group (kind : TokenKind) {opener : Opener} (found : Opener.at? (c :: rest) = some opener) :
    Opener.at? ((group kind '{' '}' (c :: rest) opener.length).tokenText c rest) = some opener ∧
      (((group kind '{' '}' (c :: rest) opener.length).tokenText c rest).takeWhile
        (· ≠ '{')).length + 1 = opener.length := by
  have bounds := Opener.two_le_length_of_at? found
  have reach := openerLength_le_group kind '{' '}' bounds.2
  rw [tokenText_eq_take (by omega)]
  exact Opener.at?_take found reach

theorem multireplace_shows {openerLength : Nat}
    (found : Opener.at? (c :: rest) = some ⟨.multireplace, openerLength⟩) :
    Shows { group .unknown '{' '}' (c :: rest) openerLength with problem := some .multireplace }
      c rest offset := by
  obtain ⟨again, starts⟩ := at?_group .unknown found
  have opens : (token (group .unknown '{' '}' (c :: rest) openerLength) c rest offset).opensMultireplace
      = true := by
    simp only [token, Token.opensMultireplace, Opener.multireplaceAt?, again]
    rfl
  constructor
  · intro unclosed
    apply group_last
    have open_ : (token (group .unknown '{' '}' (c :: rest) openerLength) c rest offset).isUnclosed
        = true := unclosed
    simp only [Token.isUnclosed, token, group_kind, Token.contentsStart, starts, Bool.and_eq_true,
      Option.isNone_iff_eq_none] at open_
    exact open_.2
  · have shown : (token (group .unknown '{' '}' (c :: rest) openerLength) c rest offset).problem?
        = some .multireplace := by
      simp only [Token.problem?, token, group_kind] at opens ⊢
      rw [opens]
      rfl
    exact shown

/-- A lexeme of any other kind stands for a token that is closed and right. -/
theorem plain_shows {lexeme : Lexeme} (noProblem : lexeme.problem = none)
    (plain : lexeme.kind ≠ .string ∧ lexeme.kind ≠ .parentheses ∧ lexeme.kind ≠ .reference ∧
      lexeme.kind ≠ .unknown) : lexeme.Shows c rest offset := by
  obtain ⟨noString, noParentheses, noReference, known⟩ := plain
  constructor
  · intro unclosed
    unfold Token.isUnclosed at unclosed
    split at unclosed
    · exact absurd ‹_› noString
    · exact absurd ‹_› noParentheses
    · exact absurd ‹_› noReference
    · exact absurd ‹_› known
    · cases unclosed
  · unfold Token.problem?
    split
    · rename_i kind
      exact absurd kind known
    · rename_i kind
      exact absurd kind noString
    · exact noProblem.symm

theorem wordKind_plain (word : String) (after : Text) :
    wordKind word after ≠ .string ∧ wordKind word after ≠ .parentheses ∧
      wordKind word after ≠ .reference ∧ wordKind word after ≠ .unknown := by
  unfold wordKind
  repeat' split
  all_goals simp

/-- A run of unknown characters starts with no opener, for the sign of one ends it. -/
theorem at?_unknownRun (c : Char) (rest : Text) :
    Opener.at? (c :: rest.take (max 1 ((c :: rest).takeWhile (!endsUnknown ·)).length - 1)) = none := by
  by_cases sign : c = '$' ∨ c = '@'
  · have ends : endsUnknown c = true := by
      rcases sign with rfl | rfl <;> decide
    rcases sign with rfl | rfl <;> simp [ends, Opener.at?, Opener.bangsToBrace?]
  · simp only [not_or] at sign
    unfold Opener.at?
    split
    · rename_i same
      exact absurd (List.cons.inj same).1 sign.1
    · rename_i same
      exact absurd (List.cons.inj same).1 sign.2
    · rfl

theorem unknown_shows :
    Shows { kind := .unknown
            length := max 1 ((c :: rest).takeWhile (!endsUnknown ·)).length
            problem := some .unknownOperator } c rest offset := by
  constructor
  · intro unclosed
    simp [token, tokenText, Token.isUnclosed, Token.opensMultireplace, Opener.multireplaceAt?,
      at?_unknownRun] at unclosed
  · simp [token, tokenText, Token.problem?, Token.opensMultireplace, Opener.multireplaceAt?,
      at?_unknownRun]

theorem read_shows (c : Char) (rest : Text) (offset : Nat) : (read c rest).Shows c rest offset := by
  unfold read
  dsimp only
  split
  · rename_i quote
    subst quote
    exact string_shows
  split
  · rename_i parenthesis
    subst parenthesis
    exact parentheses_shows
  split
  · rename_i brace
    subst brace
    refine reference_shows ?_
    simp [tokenText]
  split
  · rename_i length found
    exact reference_shows (at?_group .reference found).2
  · rename_i length found
    exact multireplace_shows found
  split
  · exact plain_shows rfl (by simp)
  split
  · exact plain_shows rfl (wordKind_plain _ _)
  split
  · exact plain_shows rfl (by simp)
  · exact unknown_shows

end Lexeme

namespace Tiling

variable {offset : Nat} {text : Text} {tokens : List Token} {token : Token}

theorem cons_blank {c : Char} (isBlank : Text.isBlank c = true) (tiling : Tiling (offset + 1) text tokens) :
    Tiling offset (c :: text) tokens := by
  cases tiling with
  | blanks blank =>
      refine .blanks ?_
      simpa [Text.blank, isBlank] using blank
  | @token _ gap rest token tokens blank start head last later =>
      have wider : Text.blank (c :: gap) = true := by simpa [Text.blank, isBlank] using blank
      refine .token wider ?_ head last later
      simp only [start, List.length_cons]
      omega

theorem eq_nil (tiling : Tiling offset text tokens) (empty : text = []) : tokens = [] := by
  cases tiling with
  | blanks => rfl
  | @token _ gap rest token tokens blank start head last later =>
      obtain ⟨c, first, -⟩ := head
      rw [List.append_eq_nil_iff, List.append_eq_nil_iff] at empty
      simp [empty.1.2] at first

/-- No token starts with a blank. -/
theorem head_not_blank (tiling : Tiling offset text tokens) (member : token ∈ tokens) :
    ∃ c ∈ token.text.head?, Text.isBlank c = false := by
  induction tiling with
  | blanks => cases member
  | token _ _ head _ _ ih =>
      rcases List.mem_cons.1 member with rfl | later
      · exact head
      · exact ih later

/-- What no token takes is blank. -/
theorem blank_of_outside (tiling : Tiling offset text tokens) {i : Nat} {c : Char}
    (found : text[i]? = some c)
    (outside : ∀ token ∈ tokens, ¬ (token.start ≤ offset + i ∧ offset + i < token.stop)) :
    Text.isBlank c = true := by
  induction tiling generalizing i with
  | blanks blank => exact List.all_eq_true.1 blank c (List.mem_of_getElem? found)
  | @token offset gap rest token tokens blank start head last later ih =>
      rw [List.append_assoc] at found
      by_cases inGap : i < gap.length
      · rw [List.getElem?_append_left inGap] at found
        exact List.all_eq_true.1 blank c (List.mem_of_getElem? found)
      have apart := outside token (by simp)
      rw [List.getElem?_append_right (by omega), List.getElem?_append_right] at found
      · refine ih found fun other member => ?_
        have := outside other (by simp [member])
        simp only [Token.stop] at *
        omega
      · simp only [Token.stop] at apart
        omega

/-- A token that is not closed is the last one and runs to the end. -/
theorem last_of_unclosed (tiling : Tiling offset text tokens) (member : token ∈ tokens)
    (unclosed : token.isUnclosed = true) :
    tokens.getLast? = some token ∧ token.stop = offset + text.length := by
  induction tiling with
  | blanks => cases member
  | @token offset gap rest first tokens blank start head last later ih =>
      rcases List.mem_cons.1 member with rfl | further
      · obtain rfl := last unclosed
        obtain rfl := later.eq_nil rfl
        refine ⟨rfl, ?_⟩
        simp only [Token.stop, start, List.append_nil, List.length_append]
        omega
      · obtain ⟨final, stop⟩ := ih further
        refine ⟨by simp [List.getLast?_cons, final], ?_⟩
        rw [stop]
        simp only [Token.stop, start, List.length_append]
        omega

end Tiling

namespace Lexed

theorem readFrom_tiling (offset : Nat) (text : Text) :
    Tiling offset text ((readFrom offset text).map (·.token)) := by
  fun_induction readFrom offset text with
  | case1 => exact .blanks rfl
  | case2 offset c rest isBlank ih => exact ih.cons_blank isBlank
  | case3 offset c rest notBlank lexeme token ih =>
      have whole : c :: rest = [] ++ token.text ++ rest.drop (lexeme.length - 1) := by
        simp [token]
      rw [whole]
      refine .token rfl rfl ⟨c, rfl, by simpa using notBlank⟩ ?_ ih
      exact (Lexeme.read_shows c rest offset).last

theorem problem_of_mem_readFrom {offset : Nat} {text : Text} {lexed : Lexed}
    (member : lexed ∈ readFrom offset text) : lexed.problem = lexed.token.problem? := by
  fun_induction readFrom offset text with
  | case1 => cases member
  | case2 offset c rest isBlank ih => exact ih member
  | case3 offset c rest notBlank lexeme token ih =>
      rcases List.mem_cons.1 member with rfl | later
      · exact (Lexeme.read_shows c rest offset).problem.symm
      · exact ih later

end Lexed

namespace Expression

/-- Tokens part a text: each is what the text has at its place, they stand one after another, and what
they leave is blank. Only the last one may be unclosed, and then nothing follows it. -/
structure Parts (text : Text) (tokens : List Token) : Prop where
  nonempty : ∀ token ∈ tokens, token.text ≠ []
  slice : ∀ token ∈ tokens, (text.take token.stop).drop token.start = token.text
  increasing : tokens.Pairwise fun a b => a.start < b.start ∧ a.stop ≤ b.start
  head : ∀ token ∈ tokens, ∀ c ∈ token.text.head?, Text.isBlank c = false
  outside : ∀ (i : Nat) (c : Char), text[i]? = some c →
    (∀ token ∈ tokens, ¬ (token.start ≤ i ∧ i < token.stop)) → Text.isBlank c = true
  last : ∀ token ∈ tokens, token.isUnclosed = true →
    tokens.getLast? = some token ∧ token.stop = text.length

theorem ofText_tiling (text : Text) (globalIndex : Int) :
    Tiling 0 text (ofText text globalIndex).tokens := Lexed.readFrom_tiling 0 text

theorem ofText_parts (text : Text) (globalIndex : Int) :
    Parts text (ofText text globalIndex).tokens := by
  have tiling := ofText_tiling text globalIndex
  have stands : ∀ token ∈ (ofText text globalIndex).tokens, token.StandsIn text 0 :=
    fun token => standsIn_of_mem_tokens
  refine ⟨fun token member => (stands token member).nonempty, fun token member => ?_, ?_,
    fun token member c found => ?_, fun i c found outside => ?_, fun token member unclosed => ?_⟩
  · have piece := (stands token member).piece
    rw [Nat.sub_zero, List.prefix_iff_eq_take] at piece
    rw [List.drop_take, Token.stop, Nat.add_sub_cancel_left]
    exact piece.symm
  · refine (ofText_ordered text globalIndex).tokens.imp_of_mem fun {a b} first _ le => ⟨?_, le⟩
    have := List.length_pos_iff.2 (stands a first).nonempty
    simp only [Token.stop] at le
    omega
  · obtain ⟨d, first, plain⟩ := tiling.head_not_blank member
    rw [Option.mem_def.1 found, Option.mem_some_iff] at first
    exact first ▸ plain
  · exact tiling.blank_of_outside found fun token member => by
      rw [Nat.zero_add]
      exact outside token member
  · simpa using tiling.last_of_unclosed member unclosed

/-- The tokens of a text and the blanks between them make up the text, and its errors are those of
its tokens: one for each of unknown kind and one for each string without its closing quote, in
order. -/
theorem lexing_loses_nothing (text : Text) (globalIndex : Int) :
    Tiling 0 text (ofText text globalIndex).tokens ∧ Parts text (ofText text globalIndex).tokens ∧
      (ofText text globalIndex).errors =
        (ofText text globalIndex).tokens.filterMap Token.error? := by
  refine ⟨ofText_tiling text globalIndex, ofText_parts text globalIndex, ?_⟩
  simp only [ofText, List.filterMap_map]
  refine List.filterMap_congr fun lexed member => ?_
  simp only [Lexed.error?, Lexed.problem_of_mem_readFrom member, Function.comp_apply, Token.error?]

end Expression

end ChoiceScript
