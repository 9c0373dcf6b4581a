import ChoiceScript.Proofs.Expression.Tokens

/-! # Function names and their arguments

A word is the name of a function only where a parenthesis opens right behind it, and then the next token
is the group that opens there. So merging leaves no function name alone, and a merged call starts with the
name of a function and an open parenthesis.
-/

namespace ChoiceScript

namespace Lexeme

variable {c : Char} {rest : Text}

/-- A lexeme is no call, and if it names a function then a parenthesis opens behind it. -/
structure Applies (lexeme : Lexeme) (c : Char) (rest : Text) : Prop where
  noCall : lexeme.kind ≠ .call
  name : lexeme.kind = .function → String.ofList (lexeme.tokenText c rest) ∈ Vocabulary.functions
  opens : lexeme.kind = .function → (rest.drop (lexeme.length - 1)).head? = some '('

theorem applies_of_kind {lexeme : Lexeme} (noCall : lexeme.kind ≠ .call)
    (noFunction : lexeme.kind ≠ .function) : lexeme.Applies c rest :=
  ⟨noCall, fun same => absurd same noFunction, fun same => absurd same noFunction⟩

theorem wordKind_ne_call (word : String) (after : Text) : wordKind word after ≠ .call := by
  unfold wordKind
  repeat' split
  all_goals simp

theorem wordKind_function {word : String} {after : Text} (function : wordKind word after = .function) :
    word ∈ Vocabulary.functions ∧ after.head? = some '(' := by
  unfold wordKind at function
  repeat' split at function
  all_goals simp_all

theorem word_applies (nonempty : (c :: rest).takeWhile Text.isWord ≠ []) :
    Applies { kind := wordKind (String.ofList ((c :: rest).takeWhile Text.isWord))
                ((c :: rest).drop ((c :: rest).takeWhile Text.isWord).length)
              length := ((c :: rest).takeWhile Text.isWord).length } c rest := by
  have positive := List.length_pos_iff.2 nonempty
  refine ⟨wordKind_ne_call _ _, fun function => ?_, fun function => ?_⟩
  · have known := (wordKind_function function).1
    rwa [tokenText_eq_take positive, ← List.prefix_iff_eq_take.1 (List.takeWhile_prefix Text.isWord)]
  · have opens := (wordKind_function function).2
    rwa [show ((c :: rest).takeWhile Text.isWord).length =
      ((c :: rest).takeWhile Text.isWord).length - 1 + 1 by omega, List.drop_succ_cons] at opens

theorem read_applies (c : Char) (rest : Text) : (read c rest).Applies c rest := by
  unfold read
  dsimp only
  split
  -- strings
  · unfold string
    split <;> exact applies_of_kind (by simp) (by simp)
  split
  · exact applies_of_kind (by simp [group_kind]) (by simp [group_kind])
  split
  · exact applies_of_kind (by simp [group_kind]) (by simp [group_kind])
  split
  -- references and multireplaces
  · exact applies_of_kind (by simp [group_kind]) (by simp [group_kind])
  · exact applies_of_kind (by simp [group_kind]) (by simp [group_kind])
  split
  · exact applies_of_kind (by simp) (by simp)
  split
  · rename_i nonempty
    exact word_applies nonempty
  -- operators and what is unknown
  split <;> exact applies_of_kind (by simp) (by simp)

theorem read_parenthesis (rest : Text) :
    read '(' rest = group .parentheses '(' ')' ('(' :: rest) 1 := by
  simp [read]

end Lexeme

namespace Token

theorem isCallOf_iff {function arguments : Token} : function.isCallOf arguments = true ↔
    function.kind = .function ∧ arguments.kind = .parentheses ∧ arguments.start = function.stop := by
  simp only [isCallOf, Bool.and_eq_true, decide_eq_true_eq, and_assoc]

/-- Every function name in a list of tokens stands right before its arguments, and nothing is merged
yet. -/
inductive Applied : List Token → Prop where
  | nil : Applied []
  | call {function arguments : Token} {tokens : List Token}
    (isCall : function.isCallOf arguments = true) (known : function.name ∈ Vocabulary.functions)
    (opens : arguments.text.head? = some '(') (later : Applied tokens) :
    Applied (function :: arguments :: tokens)
  | other {token : Token} {tokens : List Token} (noFunction : token.kind ≠ .function)
    (noCall : token.kind ≠ .call) (later : Applied tokens) : Applied (token :: tokens)

/-- What is merged as far as it can be: no function name stands alone, and a call starts with one and
an open parenthesis. -/
structure Merged (token : Token) : Prop where
  noFunction : token.kind ≠ .function
  call : token.kind = .call →
    ∃ function ∈ Vocabulary.functions, ∃ rest, token.text = function.toList ++ '(' :: rest

theorem combine_call {function arguments : Token} (isCall : function.isCallOf arguments = true)
    (tokens : List Token) :
    combine (function :: arguments :: tokens) = function.call arguments :: combine tokens := by
  rw [combine, if_pos isCall]

theorem combine_other {token : Token} (noFunction : token.kind ≠ .function) (tokens : List Token) :
    combine (token :: tokens) = token :: combine tokens := by
  cases tokens with
  | nil => rfl
  | cons next tokens => rw [combine, if_neg (by simp [isCallOf, noFunction])]

/-- Merging leaves no function name alone. -/
theorem Applied.merged {tokens : List Token} (applied : Applied tokens) :
    ∀ token ∈ combine tokens, token.Merged := by
  induction applied with
  | nil => simp [combine]
  | @call function arguments tokens isCall known opens later ih =>
      rw [combine_call isCall]
      rintro token (_ | ⟨_, further⟩)
      · obtain ⟨rest, begins⟩ := List.head?_eq_some_iff.1 opens
        refine ⟨by simp [Token.call], fun _ => ⟨function.name, known, rest, ?_⟩⟩
        simp [Token.call, name, begins]
      · exact ih token further
  | other noFunction noCall later ih =>
      rw [combine_other noFunction]
      rintro token (_ | ⟨_, further⟩)
      · exact ⟨noFunction, fun same => absurd same noCall⟩
      · exact ih token further

/-- The function that a token names or calls is one of the language, and the token starts with its name. -/
structure StartsWith (token : Token) (function : String) : Prop where
  known : function ∈ Vocabulary.functions
  text : function.toList <+: token.text

theorem function_plain :
    ∀ name ∈ Vocabulary.functions, name.toList.all (· ≠ '(') = true := by
  decide

theorem Merged.startsWith {token : Token} (merged : token.Merged) {function : String}
    (named : token.function? = some function) : token.StartsWith function := by
  unfold function? at named
  split at named
  · exact absurd ‹_› merged.noFunction
  · rename_i kind
    obtain ⟨called, known, rest, text⟩ := merged.call kind
    have name : token.text.takeWhile (· ≠ '(') = called.toList := by
      rw [text]
      exact Text.takeWhile_exact (List.all_eq_true.1 (function_plain called known)) (by simp)
    rw [name, String.ofList_toList, Option.some.injEq] at named
    subst named
    exact ⟨known, by simp [text]⟩
  · cases named

theorem Applied.startsWith {tokens : List Token} (applied : Applied tokens) {token : Token}
    (member : token ∈ tokens) {function : String} (named : token.function? = some function) :
    token.StartsWith function := by
  induction applied with
  | nil => cases member
  | @call name arguments tokens isCall known opens later ih =>
      obtain ⟨isName, isGroup, -⟩ := isCallOf_iff.1 isCall
      rcases member with _ | ⟨_, _ | ⟨_, further⟩⟩
      · simp only [function?, isName, Option.some.injEq] at named
        subst named
        exact ⟨known, by simp [Token.name]⟩
      · simp [function?, isGroup] at named
      · exact ih further
  | other noFunction noCall later ih =>
      rcases member with _ | ⟨_, further⟩
      · unfold function? at named
        split at named
        · exact absurd ‹_› noFunction
        · exact absurd ‹_› noCall
        · cases named
      · exact ih further

/-- Only one function is boolean, and no other function starts as its name does. -/
theorem StartsWith.prefix_iff {token : Token} {function : String} (starts : token.StartsWith function) :
    "not".toList.isPrefixOf token.text = true ↔ function ∈ Vocabulary.booleanFunctions := by
  obtain ⟨rest, text⟩ := starts.text
  have known := starts.known
  simp only [Vocabulary.functions, List.mem_cons, List.not_mem_nil, or_false] at known
  rw [← text]
  rcases known with rfl | rfl | rfl | rfl | rfl | rfl <;>
    simp [Vocabulary.booleanFunctions, List.isPrefixOf]

end Token

namespace Lexed

theorem readFrom_parenthesis (offset : Nat) (rest : Text) : ∃ arguments later,
    (readFrom offset ('(' :: rest)).map (·.token) = arguments :: later ∧
      arguments.kind = .parentheses ∧ arguments.start = offset ∧ arguments.text.head? = some '(' := by
  have plain : Text.isBlank '(' = false := by decide
  rw [readFrom]
  simp only [plain, Bool.false_eq_true, if_false, List.map_cons]
  exact ⟨_, _, rfl, by rw [Lexeme.read_parenthesis, Lexeme.group_kind], rfl, rfl⟩

/-- The name of a function is read only where its arguments are the next token. -/
theorem readFrom_applied (offset : Nat) (text : Text) :
    Token.Applied ((readFrom offset text).map (·.token)) := by
  fun_induction readFrom offset text with
  | case1 => exact .nil
  | case2 offset c rest isBlank ih => exact ih
  | case3 offset c rest notBlank lexeme token ih =>
      have applies := Lexeme.read_applies c rest
      by_cases function : lexeme.kind = .function
      · obtain ⟨behind, opens⟩ := List.head?_eq_some_iff.1 (applies.opens function)
        obtain ⟨arguments, later, next, kind, start, head⟩ := readFrom_parenthesis token.stop behind
        have cut : (readFrom token.stop (rest.drop (lexeme.length - 1))).map (·.token) =
            arguments :: later := by rw [← next, ← opens]
        rw [List.map_cons, cut]
        rw [cut] at ih
        -- the arguments are no function name, so what follows them is in order by itself
        cases ih with
        | call isCall _ _ _ => simp [Token.isCallOf, kind] at isCall
        | other _ _ after =>
            refine .call ?_ (applies.name function) head after
            simp only [Token.isCallOf, kind, start, token, function, decide_true, Bool.and_self]
      · exact .other function applies.noCall ih

end Lexed

namespace Expression

/-- The combined tokens of a text hold no function name alone. -/
theorem combined_merged {text : Text} {globalIndex : Int} {token : Token}
    (member : token ∈ (ofText text globalIndex).combined) : token.Merged :=
  (Lexed.readFrom_applied 0 text).merged token member

end Expression

end ChoiceScript
