import ChoiceScript.Parser.Document
import ChoiceScript.Proofs.Construct
import ChoiceScript.Proofs.Expression.Relexing
import ChoiceScript.Proofs.Expression.Shape
import ChoiceScript.Proofs.Parser.Effect
import ChoiceScript.Proofs.Parser.Progress

/-! # Names without a value

A command that gives a variable a value may be followed by the name of a variable and nothing else but
padding. `*set` looks at the tokens behind the name, so however much padding there is the value is
missing. `*create` takes one blank for what parts the name from its value, and all that follows for the
value, if anything does. So padding of two or more characters is a value that holds nothing, and it is
not reported.
-/

namespace ChoiceScript

namespace Text

variable {gap : Text}

/-- Spaces and tabs. -/
def Padding (text : Text) : Prop := ∀ c ∈ text, isPadding c = true

theorem isPadding_eq_false_of_isWord {c : Char} (word : isWord c = true) : isPadding c = false := by
  cases padding : isPadding c with
  | false => rfl
  | true => simp [isWord_eq_false_of_isBlank (isBlank_of_isPadding padding)] at word

theorem Padding.tail (padding : Padding gap) : Padding gap.tail :=
  fun c member => padding c (List.mem_of_mem_tail member)

theorem Padding.isBlank (padding : Padding gap) : ∀ c ∈ gap, isBlank c = true :=
  fun c member => isBlank_of_isPadding (padding c member)

theorem Padding.head_not_word (padding : Padding gap) : ∀ c ∈ gap.head?, isWord c = false :=
  fun c first => isWord_eq_false_of_isBlank (padding.isBlank c (List.mem_of_head? first))

theorem Padding.head_ne (padding : Padding gap) {c : Char} (other : isPadding c = false) :
    gap.head? ≠ some c := by
  intro first
  have := padding c (List.mem_of_head? first)
  simp [other] at this

theorem Padding.valueAfter? (padding : Padding gap) :
    valueAfter? gap = if 1 < gap.length then some (1, gap.tail) else none := by
  rcases gap with _ | ⟨c, _ | ⟨d, rest⟩⟩
  · rfl
  · rfl
  have blank := padding.isBlank c List.mem_cons_self
  have feeds : ∀ e ∈ d :: rest, decide (e ≠ '\n') = true := by
    intro e member
    have := padding e (.tail _ member)
    rw [decide_eq_true_eq]
    rintro rfl
    simp [isPadding] at this
  have first : d ≠ '\n' := by simpa using feeds d List.mem_cons_self
  have whole : (d :: rest).takeWhile (· ≠ '\n') = d :: rest := by
    rw [List.takeWhile_eq_self_iff]
    exact feeds
  rw [Text.valueAfter?, if_neg (by simp [blank]), if_neg first, whole]
  simp

end Text

theorem Lexed.readFrom_blank {text : Text} (blank : ∀ c ∈ text, Text.isBlank c = true) (offset : Nat) :
    readFrom offset text = [] := by
  induction text generalizing offset with
  | nil => simp [readFrom]
  | cons c rest ih =>
      rw [readFrom, if_pos (blank c List.mem_cons_self)]
      exact ih (fun d member => blank d (.tail _ member)) (offset + 1)

namespace Expression

variable {word gap : Text}

/-- A text is read as the name of one variable. -/
def Names (word : Text) : Prop := (ofText word 0).tokens = [⟨.variableName, word, 0⟩]

theorem Names.isWord (names : Names word) : ∀ c ∈ word, Text.isWord c = true :=
  (standsIn_of_mem_tokens (names ▸ List.mem_cons_self)).word rfl

theorem Names.ne_nil (names : Names word) : word ≠ [] :=
  (standsIn_of_mem_tokens (names ▸ List.mem_cons_self)).nonempty

/-- Padding behind a name is no part of it, and not read. -/
theorem Names.lexed_append (names : Names word) (padding : gap.Padding) :
    lexed (word ++ gap) = [⟨⟨.variableName, word, 0⟩, none⟩] := by
  have wordy := names.isWord
  obtain ⟨c, rest, rfl⟩ := List.exists_cons_of_ne_nil names.ne_nil
  have solid := Text.isBlank_eq_false_of_isWord (wordy c List.mem_cons_self)
  -- the name by itself is read without padding behind it
  have nothing : ∀ d ∈ ([] : Text).head?, Text.isWord d = false := fun _ member => nomatch member
  have alone := Lexeme.read_word wordy nothing
  have kind : (Lexeme.read c (rest ++ [])).kind = .variableName := by
    have tokens : (lexed (c :: rest)).map (·.token) = [⟨.variableName, c :: rest, 0⟩] := names
    rw [lexed_cons solid, List.map_cons, List.cons.injEq, Token.mk.injEq] at tokens
    rw [List.append_nil]
    exact tokens.1.1
  have noDigit : Text.isDecimal c = false := by
    cases digit : Text.isDecimal c with
    | false => rfl
    | true => exact absurd ((alone.1 digit).symm.trans kind) (by decide)
  rw [alone.2 noDigit] at kind
  have same : Lexeme.wordKind (String.ofList (c :: rest)) gap = .variableName := by
    rw [← kind]
    simp [Lexeme.wordKind, padding.head_ne (show Text.isPadding '(' = false by decide)]
  rw [List.cons_append, lexed_cons solid, (Lexeme.read_word wordy padding.head_not_word).2 noDigit, same]
  simp [Lexeme.tokenText, Lexed.readFrom_blank padding.isBlank]

theorem Names.tokens (names : Names word) (padding : gap.Padding) (index : Int) :
    (ofText (word ++ gap) index).tokens = [⟨.variableName, word, 0⟩] := by
  simp [ofText, names.lexed_append padding]

theorem Names.errors (names : Names word) (padding : gap.Padding) (index : Int) :
    (ofText (word ++ gap) index).errors = [] := by
  simp [ofText, names.lexed_append padding, Lexed.error?]

theorem ofText_padding (padding : gap.Padding) (index : Int) : ofText gap index = ⟨gap, index, [], []⟩ := by
  simp [ofText, lexed, Lexed.readFrom_blank padding.isBlank]

end Expression

namespace CommandLine

/-- A command line that gives a variable a value, with the name of the variable and no value. -/
structure Valueless (line : CommandLine) (word gap : Text) : Prop where
  gives : line.name = "set".toList ∨ line.name = "create".toList
  names : Expression.Names word
  rest : line.rest = word ++ gap
  gap : gap.Padding
  padding : line.padding.Padding
  spacing : line.spacing.Padding
  parted : line.spacing ≠ []

namespace Valueless

variable {line : CommandLine} {word gap : Text} (valueless : Valueless line word gap)

include valueless

theorem plain : ∀ c ∈ line.rest, endsLine c = false := by
  intro c member
  rw [valueless.rest, List.mem_append] at member
  by_contra ends
  have breaks : c = '\r' ∨ c = '\n' := by simpa [endsLine, Decidable.or_iff_not_imp_left] using ends
  rcases member with inWord | inGap
  · have := valueless.names.isWord c inWord
    rcases breaks with rfl | rfl <;> exact absurd this (by decide)
  · have := valueless.gap c inGap
    rcases breaks with rfl | rfl <;> exact absurd this (by decide)

/-- Such a line is read off the text that it is the first line of. -/
theorem read? {after : Text} (ends : ∀ c ∈ after.head?, endsLine c = true) :
    CommandLine.read? (line.render ++ after) = some line := by
  obtain ⟨c, word', rfl⟩ := List.exists_cons_of_ne_nil valueless.names.ne_nil
  obtain ⟨space, spaces, spacing⟩ := List.exists_cons_of_ne_nil valueless.parted
  have solid := Text.isPadding_eq_false_of_isWord (valueless.names.isWord c List.mem_cons_self)
  refine CommandLine.read?_eq_some_iff.2 ⟨valueless.padding, ?_, ?_, valueless.spacing, valueless.plain,
    fun none => absurd none valueless.parted, after, rfl, ?_, ?_, fun _ => ends⟩
  · rcases valueless.gives with set | create
    · simp [set]
    · simp [create]
  · rcases valueless.gives with set | create
    · rw [set]
      exact List.all_eq_true.1 (by decide)
    · rw [create]
      exact List.all_eq_true.1 (by decide)
  · have := valueless.spacing.head_not_word
    simpa [spacing] using this
  · simpa [valueless.rest] using solid

theorem not_blank : Text.blank line.rest = false := by
  obtain ⟨c, word', rfl⟩ := List.exists_cons_of_ne_nil valueless.names.ne_nil
  have solid := Text.isBlank_eq_false_of_isWord (valueless.names.isWord c List.mem_cons_self)
  rw [valueless.rest]
  simp [Text.blank, solid]

end Valueless

end CommandLine

/-- Is the report an error of the given kind? -/
def Report.isErrorOf (notice : Notice) : Report → Bool
  | .event .. => false
  | .error diagnostic => diagnostic.code = notice.code

namespace Parser

variable {source : Source} {context : Context} {notice : Notice} {word gap : Text} {index : Int}

/-- A parser passes, and reports errors of a kind so many times. -/
def Totals (source : Source) (context : Context) (notice : Notice) (times : Nat) (parser : Parser Unit) :
    Prop :=
  Adds source context False (fun _ => True) (fun new => new.countP (Report.isErrorOf notice) = times) parser

theorem Totals.pure : Totals source context notice 0 (pure ()) := Adds.pure trivial rfl

theorem Totals.bind {first next : Parser Unit} {early late : Nat}
    (before : Totals source context notice early first) (after : Totals source context notice late next) :
    Totals source context notice (early + late) (first >>= fun _ => next) :=
  Adds.andThen before after fun _ _ held alsoHeld => by rw [List.countP_append, held, alsoHeld]

theorem Totals.emitSymbol {role : SymbolRole} {name : Text} :
    Totals source context notice 0 (emitSymbol role name index) :=
  Adds.afterLocate (Document.locationAt_eq (by omega)) (Adds.emit rfl)

theorem Totals.complain : Totals source context notice 1 (complain notice index index []) := by
  refine Adds.told (Int.le_refl _) rfl fun diagnostic made => ?_
  simp [Report.isErrorOf, Notice.code_of_between made]

theorem totals_lexErrors {expression : Expression} (none : expression.errors = []) :
    Totals source context notice 0 (lexErrors expression) := by
  refine ⟨.ok (), [], trivial, rfl, fun version reports => ?_⟩
  simp [lexErrors, Expression.diagnostics, none, Bind.bind, document, lift, Except.pure, Pure.pure]

/-- A name is read as what refers to the variable. -/
theorem totals_lexedExpression {expression : Expression}
    (tokens : expression.tokens = [⟨.variableName, word, 0⟩]) (none : expression.errors = []) :
    Totals source context notice 0 (lexedExpression expression) := by
  obtain ⟨text, globalIndex, _, errors⟩ := expression
  subst tokens none
  exact (Totals.emitSymbol.bind Totals.pure).bind (totals_lexErrors rfl)

/-- Padding holds nothing to read. -/
theorem totals_value (padding : gap.Padding) : Totals source context notice 0 (value gap index) := by
  have read := Expression.ofText_padding padding index
  have walked : Totals source context notice 0 (walk gap index) := by
    rw [(eq_walk_iff walk).2 rfl gap index, expressionBy]
    generalize Expression.ofText gap index = expression at read
    subst read
    exact Totals.pure.bind (totals_lexErrors rfl)
  have direct : value gap index = walk gap index >>= fun _ => checkValue (Expression.ofText gap index) := by
    funext source progress
    simp only [value, expression, Bind.bind, Pure.pure]
    rcases walk gap index source progress with ⟨_ | _, _⟩ <;> rfl
  rw [direct, read]
  exact walked.bind Totals.pure

theorem totals_set (names : Expression.Names word) (padding : gap.Padding) :
    Totals source context .missingValue 1 (set (word ++ gap) index) := by
  have tokens := names.tokens padding index
  have errors := names.errors padding index
  have only : ((Expression.ofText (word ++ gap) index).slice 0 (some 1)).tokens =
      [⟨.variableName, word, 0⟩] := by simp [Expression.slice, tokens]
  have clean : ((Expression.ofText (word ++ gap) index).slice 0 (some 1)).errors = [] := by
    simp [Expression.slice, tokens, errors]
  have left : ((Expression.ofText (word ++ gap) index).slice 1 none).tokens = [] := by
    simp [Expression.slice, tokens]
  unfold set
  dsimp only
  split
  · rename_i none
    cases tokens.symm.trans none
  · rename_i first rest some
    cases tokens.symm.trans some
    rw [if_pos left]
    unfold target
    exact (totals_lexedExpression only clean).bind Totals.complain

theorem totals_create (names : Expression.Names word) (padding : gap.Padding) :
    Totals source context .missingValue (if 1 < gap.length then 0 else 1)
      (symbolCommand "create" (word ++ gap) index) := by
  have taken : (word ++ gap).takeWhile Text.isWord = word :=
    Text.takeWhile_exact names.isWord padding.head_not_word
  have symbol : symbolCommand "create" (word ++ gap) index =
      symbolUse "create" word (Text.valueAfter? gap) index := by
    unfold symbolCommand
    rw [if_neg (by decide), if_neg (by decide)]
    dsimp only
    rw [if_neg (by decide)]
    split
    · rename_i none
      exact absurd (taken.symm.trans none) names.ne_nil
    · rw [if_neg (by decide), taken, List.drop_left]
  rw [symbol, padding.valueAfter?]
  by_cases long : 1 < gap.length
  · rw [if_pos long, if_pos long]
    exact Totals.emitSymbol.bind (totals_value padding.tail)
  · rw [if_neg long, if_neg long]
    exact Totals.emitSymbol.bind (Totals.complain.bind Totals.pure)

/-- A known command with something behind it is read by its arguments. -/
theorem totals_command {padding spacing line : Text} {name : String} {times : Nat} {stack : List Element}
    (known : Vocabulary.commands.contains name = true) (solid : Text.blank line = false)
    (startup : Vocabulary.startupCommands.contains name = true →
      Uri.isStartup source.startupFile source.document.uri = .ok true)
    (read : ∀ commandIndex lineIndex, Totals source ⟨some name, .command :: stack⟩ notice times
      (arguments name line commandIndex lineIndex)) :
    Totals source ⟨none, stack⟩ notice times (command padding name spacing line index) := by
  unfold command
  refine Adds.duringCommand (Adds.afterLocate (Document.locationAt_eq (by omega)) (Adds.afterEmit ?_))
  rw [if_neg (by rw [known]; decide), if_neg (by simp [solid])]
  cases early : Vocabulary.startupCommands.contains name with
  | false => exact read _ _
  | true => exact Adds.afterStartup (startup early) (read _ _)

section Valueless

variable {line : CommandLine} (valueless : line.Valueless word gap) (start : Nat)
  (startup : line.name = "create".toList → Uri.isStartup source.startupFile source.document.uri = .ok true)

include valueless startup

theorem totals_construct :
    Totals source ⟨none, []⟩ .missingValue (if line.name = "create".toList ∧ 1 < gap.length then 0 else 1)
      (construct (.commandLine start line)) := by
  have whole : construct (.commandLine start line) = command line.padding (String.ofList line.name)
      line.spacing (word ++ gap) (start + line.padding.length + 1) := by rw [← valueless.rest]; rfl
  have solid : Text.blank (word ++ gap) = false := valueless.rest ▸ valueless.not_blank
  rw [whole]
  rcases valueless.gives with set | create
  · rw [set, String.ofList_toList, if_neg (by simp)]
    refine totals_command (by decide) solid (fun early => absurd early (by decide)) fun _ lineIndex => ?_
    exact totals_set valueless.names valueless.gap
  · simp only [create, String.ofList_toList, eq_self, true_and]
    refine totals_command (by decide) solid (fun _ => startup create) fun _ lineIndex => ?_
    exact totals_create valueless.names valueless.gap

/-- A line that gives a variable no value is read off the text that starts with it, and wherever it
stands, its missing value is reported once. Only `*create` does not report it, if more than one character
of padding is behind the name. -/
theorem missingValue_of_valueless :
    (∀ after : Text, (∀ c ∈ after.head?, CommandLine.endsLine c = true) →
      CommandLine.read? (line.render ++ after) = some line) ∧
    ∃ added : List Report, (∀ before, construct (.commandLine start line) source { reports := before } =
        (.ok (), { reports := before ++ added })) ∧
      added.countP (Report.isErrorOf .missingValue) =
        if line.name = "create".toList ∧ 1 < gap.length then 0 else 1 := by
  refine ⟨fun after => valueless.read?, ?_⟩
  obtain ⟨outcome, added, settles, counted, ran⟩ := totals_construct valueless start startup
  cases outcome with
  | error fault => exact settles.elim
  | ok value => exact ⟨added, ran source.document.version, counted⟩

end Valueless

/-- The variable `x` is created, with padding in the place of its value. -/
def createX (gap : Text) : CommandLine := ⟨[], "create".toList, " ".toList, 'x' :: gap⟩

theorem valueless_createX (padding : gap.Padding) : (createX gap).Valueless "x".toList gap where
  gives := .inr rfl
  names := by
    unfold Expression.Names
    decide +kernel
  rest := rfl
  gap := padding
  padding := by simp [createX, Text.Padding]
  spacing := by simp [createX, Text.Padding, Text.isPadding]
  parted := by simp [createX]

/-- A startup file whose only line is a command line. -/
def startupLine (line : CommandLine) : Source :=
  ⟨⟨"file:///game/startup.txt", line.render ++ ['\n'], 0⟩, "startup.txt"⟩

/-- One character of padding does not hide that the value is missing. -/
theorem missingValue_of_createX : (createX " ".toList).Valueless "x".toList " ".toList ∧
    Uri.isStartup "startup.txt" "file:///game/startup.txt" = .ok true ∧
    CommandLine.read? "*create x \n".toList = some (createX " ".toList) ∧
    ∃ added : List Report, (∀ before, construct (.commandLine 0 (createX " ".toList))
        (startupLine (createX " ".toList)) { reports := before } = (.ok (), { reports := before ++ added })) ∧
      added.countP (Report.isErrorOf .missingValue) = 1 := by
  have valueless := valueless_createX (show Text.Padding " ".toList by simp [Text.Padding, Text.isPadding])
  let startupFile := startupLine (createX " ".toList)
  have startup : Uri.isStartup startupFile.startupFile startupFile.document.uri = .ok true := by
    decide +kernel
  obtain ⟨reads, reported⟩ := missingValue_of_valueless valueless 0 fun _ => startup
  exact ⟨valueless, startup, reads "\n".toList (by simp [CommandLine.endsLine]), reported⟩

/-- Two characters of padding are a value for `*create`, and nothing is reported. -/
theorem missingValue_unreported : (createX "  ".toList).Valueless "x".toList "  ".toList ∧
    Uri.isStartup "startup.txt" "file:///game/startup.txt" = .ok true ∧
    (startupLine (createX "  ".toList)).reports.toOption.map
      (·.countP (Report.isErrorOf .missingValue)) = some 0 :=
  ⟨valueless_createX (by simp [Text.Padding, Text.isPadding]), by decide +kernel, by decide +kernel⟩

end Parser

end ChoiceScript
