import ChoiceScript.Parser.Inline
import ChoiceScript.Proofs.Nesting.Basic

/-! # What expressions report

However constructs nest in an expression, all that it reports is that variables are referred to, and
errors of a few kinds: those that lexing finds, and those of constructs that are not closed, hold too
little, or stand in one another.
-/

namespace ChoiceScript

/-- What is complained of in expressions and the constructs in them. -/
def Notice.inline : List Notice := [
  unterminatedString, unknownOperator, multireplaceInExpression, replacementUnclosed, replacementEmpty,
  parenthesesUnclosed, multireplaceUnclosed, multireplaceNested, multireplaceEmpty, multireplaceNoOptions,
  multireplaceOneOption]

/-- A variable is referred to, or there is an error in an expression or a construct. -/
def Report.IsInline : Report → Prop
  | .event told _ => told.IsReference
  | .error diagnostic => ∃ notice ∈ Notice.inline, notice.Makes diagnostic

namespace Parser

variable {α β : Type}

/-- A parser reports what expressions report only. -/
abbrev Inlines (source : Source) (context : Context) (parser : Parser α) : Prop :=
  Adds source context True (fun _ => True) (fun new => ∀ report ∈ new, report.IsInline) parser

section Rules

variable {source : Source} {context : Context}

theorem Inlines.pure {value : α} : Inlines source context (Pure.pure value) :=
  Adds.pure trivial (by simp)

theorem Inlines.bind {first : Parser α} {next : α → Parser β} (before : Inlines source context first)
    (after : ∀ value, Inlines source context (next value)) : Inlines source context (first >>= next) :=
  Adds.bind before (fun value _ => after value) (fun _ held => held) fun _ _ held more =>
    List.forall_mem_append.2 ⟨held, more⟩

/-- What follows two branches is read after either. -/
theorem Inlines.branch {condition : Prop} [Decidable condition] {first second : Parser α}
    {next : α → Parser β} (yes : Inlines source context first) (no : Inlines source context second)
    (after : ∀ value, Inlines source context (next value)) :
    Inlines source context (if condition then first >>= next else second >>= next) := by
  split
  · exact yes.bind after
  · exact no.bind after

theorem Inlines.complain {notice : Notice} {start stop : Int} {fields : Fields}
    (listed : notice ∈ Notice.inline) :
    Inlines source context (complain notice start stop fields) := by
  refine Adds.complain (by simp) (fun diagnostic made => ?_) (.inl trivial)
  exact List.forall_mem_singleton.2 ⟨notice, listed, Notice.makes_of_between made⟩

theorem Inlines.forM {list : List β} {step : β → Parser Unit}
    (each : ∀ member ∈ list, Inlines source context (step member)) :
    Inlines source context (list.forM step) :=
  Adds.forM (by simp) (fun _ _ held more => List.forall_mem_append.2 ⟨held, more⟩) each

end Rules

end Parser

/-- A way to read expressions reports what expressions report only. -/
def Descent.Inlines (source : Source) {bound : Nat} (descend : Descent bound) : Prop :=
  ∀ text shorter index context, Parser.Inlines source context (descend text shorter index)

theorem Descent.Inlines.weaken {source : Source} {low high : Nat} {descend : Descent high}
    (inlines : descend.Inlines source) (le : low ≤ high) : (descend.weaken le).Inlines source :=
  fun text shorter => inlines text (Nat.lt_of_lt_of_le shorter le)

namespace Parser

variable {source : Source} {context : Context} {text : Text} {openLength origin : Int} {start : Nat}

section Shorter

variable {descend : Descent text.length} (inlines : descend.Inlines source)

include inlines

theorem inlines_referenceWith :
    Inlines source context (referenceWith text descend openLength origin start) := by
  apply Adds.within
  refine Inlines.bind ?_ fun _ => .pure
  unfold referenceContents
  split
  · exact Inlines.complain (by decide)
  · split
    · exact Inlines.complain (by decide)
    · exact inlines _ _ _ _

theorem inlines_parenthesesWith :
    Inlines source context (parenthesesWith text descend origin start) := by
  apply Adds.within
  refine Inlines.bind ?_ fun _ => .pure
  unfold parenthesesContents
  split
  · exact Inlines.complain (by decide)
  · exact inlines _ _ _ _

theorem inlines_optionWith : Inlines source context (optionWith text descend origin) :=
  .forM fun _ _ => (inlines_referenceWith (inlines.weaken _)).discard

omit inlines in
theorem inlines_optionsWith {bound : Nat} {descend : Descent bound} (inlines : descend.Inlines source)
    {options : List Piece} (short : ∀ option ∈ options, option.text.length < bound) :
    Inlines source context (optionsWith descend origin options short) := by
  induction options with
  | nil => exact .pure
  | cons option options ih => exact (inlines_optionWith (inlines.weaken _)).bind fun _ => ih _

omit inlines in
theorem inlines_complainNested {multireplace : Multireplace} :
    Inlines source context (complainNested text multireplace origin) := by
  unfold complainNested
  dsimp only
  split
  · exact .pure
  · exact Inlines.complain (by decide)

theorem inlines_multireplaceContents {nested : Bool} :
    Inlines source context (multireplaceContents text descend openLength origin start nested) := by
  unfold multireplaceContents
  dsimp only
  split
  · exact Inlines.complain (by decide)
  · refine Inlines.branch (.complain (by decide)) inlines_complainNested fun _ => ?_
    split
    · exact Inlines.complain (by decide)
    · exact Inlines.complain (by decide)
    · exact Inlines.complain (by decide)
    · exact (inlines _ _ _ _).bind fun _ => inlines_optionsWith inlines _

theorem inlines_multireplaceWith :
    Inlines source context (multireplaceWith text descend openLength origin start) := by
  apply Adds.afterIsInside
  apply Adds.within
  exact (inlines_multireplaceContents inlines).bind fun _ => .pure

theorem inlines_openingWith (opening : Opening) :
    Inlines source context (openingWith text descend origin opening) := by
  unfold openingWith
  split
  · exact (inlines_referenceWith inlines).discard
  · exact (inlines_multireplaceWith inlines).discard

theorem inlines_stringWith : Inlines source context (stringWith text descend origin start) :=
  (Inlines.forM fun opening _ => inlines_openingWith inlines opening).bind fun _ => .pure

end Shorter

theorem inlines_tokenWith {index : Int} {token : Token} {descend : Descent token.text.length}
    (inlines : descend.Inlines source) : Inlines source context (tokenWith index token descend) := by
  unfold tokenWith
  dsimp only
  split
  · exact (inlines_referenceWith inlines).discard
  · exact (inlines_stringWith inlines).discard
  · exact (inlines_parenthesesWith inlines).discard
  · exact Adds.afterLocate (Document.locationAt_eq (by omega))
      (Adds.emit (List.forall_mem_singleton.2 trivial))
  · exact .pure

theorem inlines_tokensWith {index : Int} {tokens : List Token}
    {descend : ∀ token ∈ tokens, Descent token.text.length}
    (inlines : ∀ token member, (descend token member).Inlines source) :
    Inlines source context (tokensWith index tokens descend) := by
  induction tokens with
  | nil => exact .pure
  | cons token tokens ih =>
      exact (inlines_tokenWith (inlines token _)).bind fun _ => ih fun _ _ => inlines _ _

theorem inlines_lexErrors {expression : Expression} : Inlines source context (lexErrors expression) := by
  apply Adds.readDocument fun _ => rfl
  refine Adds.afterLift trivial (by simp) fun diagnostics made => Inlines.forM fun diagnostic member => ?_
  obtain ⟨error, -, found⟩ := (Outcome.mem_mapM made).1 member
  have listed : error.problem.notice ∈ Notice.inline := by cases error.problem <;> decide
  exact Adds.report (List.forall_mem_singleton.2 ⟨_, listed, Notice.makes_of_between found⟩)

/-- What expressions of any length report they report of themselves or of shorter ones in them. -/
theorem inlines_walk (text : Text) (index : Int) : Inlines source context (walk text index) := by
  induction shorter : text.length using Nat.strongRecOn generalizing text index context with
  | ind length ih =>
      subst shorter
      rw [walk]
      refine Inlines.bind (inlines_tokensWith ?_) fun _ => inlines_lexErrors
      intro token member inner short place inside
      have := Expression.length_le_of_mem_tokens member
      exact ih inner.length (by omega) inner place rfl

theorem inlines_expression (text : Text) (index : Int) :
    Inlines source context (expression text index) :=
  (inlines_walk text index).bind fun _ => .pure

end Parser

end ChoiceScript
