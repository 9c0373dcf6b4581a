import ChoiceScript.Expression.Basic

/-! # Where tokens stand

Every token is a nonempty piece of the text it is read from, and tokens stand one after another. A
reference holds its open brace and the name of a variable nothing but word characters.
-/

namespace ChoiceScript

/-- Every opener ends in a brace. -/
theorem Opener.brace_of_at? {text : Text} {opener : Opener} (found : at? text = some opener) :
    text[opener.length - 1]? = some '{' := by
  unfold at? bangsToBrace? at found
  split at found <;> simp only [Option.map_eq_some_iff, reduceCtorEq] at found
  all_goals
    obtain ⟨length, bangs, rfl⟩ := found
    split at bangs <;> simp_all
    all_goals subst bangs; rfl

namespace Lexeme

/-- The text of the token at the head of `c :: rest`. -/
def tokenText (lexeme : Lexeme) (c : Char) (rest : Text) : Text :=
  c :: rest.take (lexeme.length - 1)

theorem tokenText_prefix (lexeme : Lexeme) (c : Char) (rest : Text) :
    lexeme.tokenText c rest <+: c :: rest := by
  rw [tokenText, List.cons_prefix_cons]
  exact ⟨rfl, List.take_prefix _ _⟩

theorem tokenText_eq_take {lexeme : Lexeme} {c : Char} {rest : Text}
    (positive : 0 < lexeme.length) : lexeme.tokenText c rest = (c :: rest).take lexeme.length := by
  obtain ⟨before, same⟩ := Nat.exists_eq_add_of_lt positive
  rw [tokenText, same]
  simp

theorem openerLength_le_group (kind : TokenKind) (opening closing : Char) {text : Text}
    {openerLength : Nat} (inside : openerLength ≤ text.length) :
    openerLength ≤ (group kind opening closing text openerLength).length := by
  unfold group
  split
  · simp only
    omega
  · exact inside

theorem group_kind (kind : TokenKind) (opening closing : Char) (text : Text) (openerLength : Nat) :
    (group kind opening closing text openerLength).kind = kind := by
  unfold group
  split <;> rfl

theorem mem_group {kind : TokenKind} {c : Char} {rest : Text} {openerLength : Nat}
    (positive : 0 < openerLength) (brace : (c :: rest)[openerLength - 1]? = some '{') :
    '{' ∈ (group kind '{' '}' (c :: rest) openerLength).tokenText c rest := by
  obtain ⟨inside, same⟩ := List.getElem?_eq_some_iff.1 brace
  have reach : openerLength ≤ (group kind '{' '}' (c :: rest) openerLength).length :=
    openerLength_le_group kind '{' '}' (by omega)
  rw [tokenText_eq_take (by omega)]
  refine List.mem_of_getElem? (i := openerLength - 1) ?_
  rw [List.getElem?_take_of_lt (by omega), brace]

theorem wordKind_ne_reference (word : String) (rest : Text) : wordKind word rest ≠ .reference := by
  unfold wordKind
  repeat' split
  all_goals simp

/-- What the kind of a token says of its text. -/
structure Fits (lexeme : Lexeme) (c : Char) (rest : Text) : Prop where
  brace : lexeme.kind = .reference → '{' ∈ lexeme.tokenText c rest
  word : lexeme.kind = .variableName → ∀ d ∈ lexeme.tokenText c rest, Text.isWord d = true

theorem fits_of_kind {lexeme : Lexeme} {c : Char} {rest : Text}
    (noReference : lexeme.kind ≠ .reference) (noVariable : lexeme.kind ≠ .variableName) :
    lexeme.Fits c rest :=
  ⟨fun same => absurd same noReference, fun same => absurd same noVariable⟩

theorem group_fits {c : Char} {rest : Text} {openerLength : Nat} (positive : 0 < openerLength)
    (brace : (c :: rest)[openerLength - 1]? = some '{') :
    (group .reference '{' '}' (c :: rest) openerLength).Fits c rest :=
  ⟨fun _ => mem_group positive brace, fun same => by rw [group_kind] at same; cases same⟩

theorem word_fits {c : Char} {rest : Text} (nonempty : (c :: rest).takeWhile Text.isWord ≠ [])
    (word : String) (after : Text) :
    Fits { kind := wordKind word after, length := ((c :: rest).takeWhile Text.isWord).length }
      c rest := by
  refine ⟨fun same => absurd same (wordKind_ne_reference _ _), fun _ d member => ?_⟩
  rw [tokenText_eq_take (List.length_pos_iff.2 nonempty),
    List.prefix_iff_eq_take.1 (List.takeWhile_prefix Text.isWord) |>.symm] at member
  exact List.all_eq_true.1 List.all_takeWhile d member

theorem read_fits (c : Char) (rest : Text) : (read c rest).Fits c rest := by
  unfold read
  dsimp only
  split
  -- strings
  · unfold string
    split <;> exact fits_of_kind (by simp) (by simp)
  split
  -- parentheses
  · exact fits_of_kind (by simp [group_kind]) (by simp [group_kind])
  split
  · rename_i isBrace
    exact group_fits Nat.one_pos (by simp [isBrace])
  split
  · rename_i length found
    have long := (Opener.two_le_length_of_at? found).1
    simp only at long
    exact group_fits (by omega) (Opener.brace_of_at? found)
  · exact fits_of_kind (by simp [group_kind]) (by simp [group_kind])
  split
  -- numbers
  · exact fits_of_kind (by simp) (by simp)
  split
  · rename_i nonempty
    exact word_fits nonempty _ _
  -- operators and what is unknown
  split <;> exact fits_of_kind (by simp) (by simp)

end Lexeme

/-- A token stands in a text that starts at an offset. -/
structure Token.StandsIn (token : Token) (text : Text) (offset : Nat) : Prop where
  after : offset ≤ token.start
  piece : token.text <+: text.drop (token.start - offset)
  nonempty : token.text ≠ []
  brace : token.kind = .reference → '{' ∈ token.text
  word : token.kind = .variableName → ∀ c ∈ token.text, Text.isWord c = true

namespace Token.StandsIn

/-- What stands further right in a text stands in the text. -/
theorem shift {token : Token} {text later : Text} {offset place : Nat}
    (stands : token.StandsIn later place) (skipped : Nat) (rest : later = text.drop skipped)
    (same : place = offset + skipped) : token.StandsIn text offset := by
  have after := stands.after
  refine ⟨by omega, ?_, stands.nonempty, stands.brace, stands.word⟩
  have piece := stands.piece
  rwa [rest, List.drop_drop, show skipped + (token.start - place) = token.start - offset by
    omega] at piece

theorem stop_le {token : Token} {text : Text} (stands : token.StandsIn text 0) :
    token.stop ≤ text.length := by
  have fits := stands.piece.length_le
  have nonempty := List.length_pos_iff.2 stands.nonempty
  rw [List.length_drop] at fits
  simp only [Token.stop]
  omega

end Token.StandsIn

namespace Lexed

theorem standsIn_of_mem_readFrom {offset : Nat} {text : Text} {lexed : Lexed}
    (member : lexed ∈ readFrom offset text) : lexed.token.StandsIn text offset := by
  fun_induction readFrom offset text with
  | case1 => simp at member
  | case2 offset c rest isBlank ih => exact (ih member).shift 1 rfl rfl
  | case3 offset c rest notBlank lexeme token ih =>
      rcases List.mem_cons.1 member with rfl | later
      · have fits := Lexeme.read_fits c rest
        refine ⟨Nat.le_refl _, ?_, List.cons_ne_nil _ _, fits.brace, fits.word⟩
        rw [Nat.sub_self, List.drop_zero]
        exact Lexeme.tokenText_prefix lexeme c rest
      · refine (ih later).shift (min (lexeme.length - 1) rest.length + 1) ?_ ?_
        · rw [List.drop_succ_cons, ← List.drop_eq_drop_min]
        · simp only [Token.stop, token, List.length_cons, List.length_take]

/-- Tokens stand one after another. -/
theorem readFrom_ordered (offset : Nat) (text : Text) :
    (readFrom offset text).Pairwise fun a b => a.token.stop ≤ b.token.start := by
  fun_induction readFrom offset text with
  | case1 => exact .nil
  | case2 offset c rest isBlank ih => exact ih
  | case3 offset c rest notBlank lexeme token ih =>
      exact .cons (fun later member => (standsIn_of_mem_readFrom member).after) ih

end Lexed

/-- Tokens stand one after another. -/
abbrev Token.InOrder (tokens : List Token) : Prop := tokens.Pairwise fun a b => a.stop ≤ b.start

namespace Expression

theorem lexed_cons {c : Char} {rest : Text} (solid : Text.isBlank c = false) :
    lexed (c :: rest) = ⟨⟨(Lexeme.read c rest).kind, (Lexeme.read c rest).tokenText c rest, 0⟩,
        (Lexeme.read c rest).problem⟩ ::
      Lexed.readFrom ((Lexeme.read c rest).tokenText c rest).length
        (rest.drop ((Lexeme.read c rest).length - 1)) := by
  rw [lexed, Lexed.readFrom, if_neg (by simp [solid])]
  simp [Lexeme.tokenText, Token.stop]

/-- The tokens of an expression stand in its text. -/
theorem standsIn_of_mem_tokens {text : Text} {globalIndex : Int} {token : Token}
    (member : token ∈ (ofText text globalIndex).tokens) : token.StandsIn text 0 := by
  obtain ⟨lexed, present, rfl⟩ := List.mem_map.1 member
  exact Lexed.standsIn_of_mem_readFrom present

/-- The tokens are in order, and no error ends before it starts. -/
structure Ordered (expression : Expression) : Prop where
  tokens : Token.InOrder expression.tokens
  errors : ∀ error ∈ expression.errors, error.start ≤ error.stop

theorem ofText_ordered (text : Text) (globalIndex : Int) : (ofText text globalIndex).Ordered := by
  refine ⟨List.pairwise_map.2 (Lexed.readFrom_ordered 0 text), fun error member => ?_⟩
  obtain ⟨lexed, -, found⟩ := List.mem_filterMap.1 member
  obtain ⟨problem, -, rfl⟩ := Option.map_eq_some_iff.1 found
  exact Nat.le_add_right _ _

/-- The errors of an expression lie in its text. -/
theorem error_stop_le {text : Text} {globalIndex : Int} {error : LexError}
    (member : error ∈ (ofText text globalIndex).errors) : error.stop ≤ text.length := by
  obtain ⟨lexed, present, found⟩ := List.mem_filterMap.1 member
  obtain ⟨problem, -, rfl⟩ := Option.map_eq_some_iff.1 found
  exact (Lexed.standsIn_of_mem_readFrom present).stop_le

theorem mem_of_mem_slice {expression : Expression} {start : Nat} {stop : Option Nat} {token : Token}
    (member : token ∈ (expression.slice start stop).tokens) : token ∈ expression.tokens := by
  cases stop with
  | none => exact List.mem_of_mem_drop member
  | some stop => exact List.mem_of_mem_take (List.mem_of_mem_drop member)

theorem Ordered.slice {expression : Expression} (ordered : expression.Ordered) (start : Nat)
    (stop : Option Nat) : (expression.slice start stop).Ordered := by
  refine ⟨?_, fun error member => ordered.errors error ?_⟩
  · cases stop with
    | none => exact ordered.tokens.sublist (List.drop_sublist _ _)
    | some stop =>
        exact ordered.tokens.sublist ((List.drop_sublist _ _).trans (List.take_sublist _ _))
  · simp only [Expression.slice] at member
    split at member
    · exact (List.mem_filter.1 member).1
    · simp at member

end Expression

end ChoiceScript
