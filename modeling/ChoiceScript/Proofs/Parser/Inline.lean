import ChoiceScript.Parser.Inline
import ChoiceScript.Proofs.Expression.Tokens
import ChoiceScript.Proofs.Multireplace
import ChoiceScript.Proofs.Openings
import ChoiceScript.Proofs.Parser.Truth
import ChoiceScript.Proofs.Text.Lines

/-! # Constructs are read truthfully

The texts of nested constructs mirror the document: each is a piece of the one around it, and an
option has spaces written over the multireplaces in it besides. A way to read expressions that is
truthful on all shorter mirrors makes every reader of a construct truthful, and so expressions of
any length are read truthfully, by induction on the length.
-/

namespace ChoiceScript

open Document

/-- A way to read expressions is truthful on what mirrors the document. -/
def Descent.Truthful (source : Source) {bound : Nat} (descend : Descent bound) : Prop :=
  ∀ text shorter index, source.document.Mirrors text index →
    Parser.Truthful source (descend text shorter index)

theorem Descent.Truthful.weaken {source : Source} {low high : Nat} {descend : Descent high}
    (truthful : descend.Truthful source) (le : low ≤ high) :
    (descend.weaken le).Truthful source :=
  fun text shorter index => truthful text (Nat.lt_of_lt_of_le shorter le) index

namespace Parser

theorem le_lineEnd {text : Text} {start : Nat} (inside : start ≤ text.length) :
    start ≤ lineEnd text start := by
  unfold lineEnd
  cases found : Text.lineEnd? text start with
  | none => exact inside
  | some stop => exact Text.le_of_lineEnd? found

variable {source : Source} {text : Text} {origin : Int} {start : Nat}

theorem truthful_complainUnclosed {notice : Notice} {openLength : Int} (long : 0 ≤ openLength)
    (inside : start ≤ text.length) :
    Truthful source (complainUnclosed notice text openLength origin start) := by
  have le := le_lineEnd inside
  exact .complain (by omega) rfl

section Shorter

variable {descend : Descent text.length}

theorem truthful_referenceContents {openLength : Int} (truthful : descend.Truthful source)
    (mirrors : source.document.Mirrors text origin) (long : 0 ≤ openLength)
    (inside : start ≤ text.length) :
    Truthful source (referenceContents text descend openLength origin start) := by
  unfold referenceContents
  split
  · exact truthful_complainUnclosed long inside
  · rename_i contents span
    split
    · exact .complain (by omega) rfl
    · exact truthful _ _ _ (mirrors.piece (Text.matchingSpan_prefix span) (by omega))

theorem truthful_referenceWith {openLength : Int} (truthful : descend.Truthful source)
    (mirrors : source.document.Mirrors text origin) (long : 0 ≤ openLength)
    (inside : start ≤ text.length) :
    Truthful source (referenceWith text descend openLength origin start) :=
  .within ((truthful_referenceContents truthful mirrors long inside).bind fun _ => .pure trivial)

theorem truthful_parenthesesWith (truthful : descend.Truthful source)
    (mirrors : source.document.Mirrors text origin) (inside : start ≤ text.length) :
    Truthful source (parenthesesWith text descend origin start) := by
  refine Meets.within (Truthful.bind ?_ fun _ => .pure trivial)
  unfold parenthesesContents
  split
  · exact truthful_complainUnclosed (by omega) inside
  · rename_i contents span
    exact truthful _ _ _ (mirrors.piece (Text.matchingSpan_prefix span) (by omega))

theorem truthful_complainNested {multireplace : Multireplace}
    (placed : multireplace.Placed text start) :
    Truthful source (complainNested text multireplace origin) := by
  unfold complainNested
  dsimp only
  split
  · exact .pure trivial
  · rename_i skipped opener found
    have fits := Opener.seek_bound Opener.length_le_of_multireplaceAt? found
    have stop := placed.stop_le
    have before := placed.test_stop
    rw [List.length_drop, List.length_take, Nat.min_eq_left (by omega)] at fits
    refine .complain ?_ rfl
    split
    · change _ ≤ ((_ : Nat) : Int) + ((_ : Nat) : Int) + 1 + origin
      omega
    · change _ ≤ ((_ : Nat) : Int) + origin
      omega

/-- Spaces that are written over multireplaces leave a mirror of the document. -/
theorem truthful_optionWith (truthful : descend.Truthful source)
    (mirrors : source.document.Mirrors text origin) :
    Truthful source (optionWith text descend origin) := by
  refine .forM fun _ member => Truthful.discard ?_
  refine truthful_referenceWith (truthful.weaken _) ?_ (by omega)
    (Opening.contents_le_of_mem_between member)
  exact mirrors.overwritten fun i c => Opener.space_or_same_of_blankMultireplaces

theorem truthful_optionsWith {bound : Nat} {descend : Descent bound} {options : List Piece}
    (truthful : descend.Truthful source) (mirrors : source.document.Mirrors text origin)
    (short : ∀ option ∈ options, option.text.length < bound)
    (stands : ∀ option ∈ options, option.StandsIn text 0) :
    Truthful source (optionsWith descend origin options short) := by
  induction options with
  | nil => exact .pure trivial
  | cons option options ih =>
      refine Truthful.bind ?_ fun _ =>
        ih _ fun option member => stands option (by simp [member])
      exact truthful_optionWith (truthful.weaken _)
        (mirrors.piece (stands option (by simp)).part (by omega))

theorem truthful_multireplaceContents {openLength : Int} {nested : Bool}
    (truthful : descend.Truthful source) (mirrors : source.document.Mirrors text origin)
    (long : 0 ≤ openLength) (inside : start ≤ text.length) :
    Truthful source (multireplaceContents text descend openLength origin start nested) := by
  unfold multireplaceContents
  dsimp only
  split
  · exact truthful_complainUnclosed long inside
  · rename_i multireplace found
    have placed := Multireplace.placed_of_read? found
    have stop := placed.stop
    have testStop := placed.test_stop
    refine Truthful.branch (fun _ => .complain (by omega) rfl)
      (fun _ => truthful_complainNested placed) fun _ => ?_
    · split
      · exact .complain (by omega) rfl
      · exact .complain (by omega) rfl
      · rename_i option flaw
        have := (placed.options option (Multireplace.mem_of_flaw? flaw)).2
        exact .complain (by omega) rfl
      · apply (truthful _ _ _ (mirrors.piece placed.test.part (by omega))).bind
        intro _
        exact truthful_optionsWith truthful mirrors _ fun option member =>
          (placed.options option member).1

theorem truthful_multireplaceWith {openLength : Int} (truthful : descend.Truthful source)
    (mirrors : source.document.Mirrors text origin) (long : 0 ≤ openLength)
    (inside : start ≤ text.length) :
    Truthful source (multireplaceWith text descend openLength origin start) :=
  Truthful.bind (Meets.isInside _) fun _ => .within <|
    (truthful_multireplaceContents truthful mirrors long inside).bind fun _ => .pure trivial

theorem truthful_openingWith {opening : Opening} (truthful : descend.Truthful source)
    (mirrors : source.document.Mirrors text origin) (inside : opening.contents ≤ text.length) :
    Truthful source (openingWith text descend origin opening) := by
  unfold openingWith
  split
  · exact .discard (truthful_referenceWith truthful mirrors (by omega) inside)
  · exact .discard (truthful_multireplaceWith truthful mirrors (by omega) inside)

theorem truthful_stringWith (truthful : descend.Truthful source)
    (mirrors : source.document.Mirrors text origin) :
    Truthful source (stringWith text descend origin start) := by
  refine Truthful.bind ?_ fun _ => .pure trivial
  exact .forM fun _ member =>
    truthful_openingWith truthful mirrors (Opening.contents_le_of_mem_inString member)

end Shorter

/-- The brace that opens a reference is found among its characters. -/
theorem openLength_le {token : Text} (brace : '{' ∈ token) :
    (token.takeWhile (· ≠ '{')).length + 1 ≤ token.length := by
  refine Nat.succ_le_of_lt (Nat.lt_of_le_of_ne (List.takeWhile_sublist _).length_le fun same => ?_)
  have whole := (List.takeWhile_prefix (p := (· ≠ '{')) (l := token)).eq_of_length same
  have := List.takeWhile_eq_self_iff.1 whole '{' brace
  simp at this

variable {index : Int}

theorem truthful_tokenWith {token : Token} {descend : Descent token.text.length}
    (truthful : descend.Truthful source) (mirrors : source.document.Mirrors text index)
    (stands : token.StandsIn text 0) : Truthful source (tokenWith index token descend) := by
  have inToken : source.document.Mirrors token.text (index + token.start) :=
    mirrors.piece stands.piece (by omega)
  have nonempty := List.length_pos_iff.2 stands.nonempty
  unfold tokenWith
  dsimp only
  split
  · rename_i kind
    exact .discard (truthful_referenceWith truthful inToken (by omega)
      (openLength_le (stands.brace kind)))
  · exact .discard (truthful_stringWith truthful inToken)
  · exact .discard (truthful_parenthesesWith truthful inToken (by omega))
  -- the name of a variable holds no space, so what mirrors it is a copy of it
  · rename_i kind
    refine .emitSymbol (inToken.copies fun space => ?_)
    have := stands.word kind ' ' space
    rw [Text.isWord_eq_false_of_isBlank (by decide)] at this
    cases this
  · exact .pure trivial

theorem truthful_tokensWith {tokens : List Token}
    {descend : ∀ token ∈ tokens, Descent token.text.length}
    (truthful : ∀ token member, (descend token member).Truthful source)
    (mirrors : source.document.Mirrors text index)
    (stands : ∀ token ∈ tokens, token.StandsIn text 0) :
    Truthful source (tokensWith index tokens descend) := by
  induction tokens with
  | nil => exact .pure trivial
  | cons token tokens ih =>
      refine (truthful_tokenWith (truthful token _) mirrors (stands token (by simp))).bind
        fun _ => ih (fun _ _ => truthful _ _) fun token member => stands token (by simp [member])

/-- Every lexing error has a range. -/
theorem diagnostics_ok {expression : Expression} (ordered : expression.Ordered)
    (document : Document) : ∃ diagnostics, expression.diagnostics document = .ok diagnostics ∧
      ∀ diagnostic ∈ diagnostics, document.Covers diagnostic.range := by
  apply Outcome.mapM_ok
  intro error member
  have le := ordered.errors error member
  exact Notice.between_ok (by omega) rfl

theorem truthful_lexErrors {expression : Expression} (ordered : expression.Ordered) :
    Truthful source (lexErrors expression) := by
  obtain ⟨diagnostics, made, each⟩ := diagnostics_ok ordered source.document
  refine Truthful.readDocument (Meets.bind (Meets.lift made) fun _ same => ?_)
  subst same
  exact .forM fun diagnostic member => .report (each diagnostic member)

/-- Expressions are read truthfully wherever they mirror the document. -/
theorem truthful_walk (mirrors : source.document.Mirrors text index) :
    Truthful source (walk text index) := by
  induction shorter : text.length using Nat.strongRecOn generalizing text index with
  | ind length ih =>
      subst shorter
      rw [walk]
      refine Truthful.bind ?_ fun _ =>
        truthful_lexErrors (Expression.ofText_ordered text index)
      refine truthful_tokensWith (fun token member inner short place inMirror => ?_) mirrors
        fun token => Expression.standsIn_of_mem_tokens
      have := Expression.length_le_of_mem_tokens member
      exact ih inner.length (by omega) inMirror rfl

theorem truthful_descent (source : Source) (bound : Nat) : (descent bound).Truthful source :=
  fun _ _ _ mirrors => truthful_walk mirrors

theorem meets_expression (mirrors : source.document.Mirrors text index) :
    Meets source (Report.Truthful source.document) (· = Expression.ofText text index)
      (expression text index) :=
  Meets.bind (truthful_walk mirrors) fun _ _ => Meets.pure rfl

theorem truthful_lexedExpression {expression : Expression} (ordered : expression.Ordered)
    (mirrors : source.document.Mirrors text expression.globalIndex)
    (stands : ∀ token ∈ expression.tokens, token.StandsIn text 0) :
    Truthful source (lexedExpression expression) :=
  (truthful_tokensWith (fun token _ => truthful_descent source token.text.length) mirrors stands).bind
    fun _ => truthful_lexErrors ordered

end Parser

end ChoiceScript
