import ChoiceScript.Proofs.Expression.Shape
import ChoiceScript.Proofs.Expression.Tiling

/-! # Slices

What is wrong with a token is found where the token stands, so a slice has the errors of its tokens and
no others. Two slices that share out the tokens of an expression share out its errors too, and a slice of
a slice is a slice of the whole. A bound may also count from the end.
-/

namespace ChoiceScript

namespace Token

variable {tokens : List Token} {first last token : Token}

theorem span_of_error? {error : LexError} (found : token.error? = some error) :
    error.start = token.start ∧ error.stop = token.stop := by
  obtain ⟨problem, -, rfl⟩ := Option.map_eq_some_iff.1 found
  exact ⟨rfl, rfl⟩

theorem start_lt_stop (nonempty : token.text ≠ []) : token.start < token.stop := by
  have long := List.length_pos_iff.2 nonempty
  simp only [stop]
  omega

theorem start_le_of_mem (ordered : InOrder tokens) (head : tokens.head? = some first)
    (member : token ∈ tokens) : first.start ≤ token.start := by
  obtain ⟨rest, rfl⟩ := List.head?_eq_some_iff.1 head
  cases member with
  | head => exact Nat.le_refl _
  | tail _ later => exact Nat.le_trans first.start_le_stop ((List.pairwise_cons.1 ordered).1 token later)

theorem stop_le_of_mem (ordered : InOrder tokens) (final : tokens.getLast? = some last)
    (member : token ∈ tokens) : token.stop ≤ last.stop := by
  obtain ⟨init, rfl⟩ := List.getLast?_eq_some_iff.1 final
  cases List.mem_append.1 member with
  | inl early =>
      have le := (List.pairwise_append.1 ordered).2.2 token early last List.mem_cons_self
      exact Nat.le_trans le last.start_le_stop
  | inr same => exact List.mem_singleton.1 same ▸ Nat.le_refl _

/-- The errors that start where one token begins or later, and before another ends. -/
def errorsBetween (first last : Token) (errors : List LexError) : List LexError :=
  errors.filter fun error => first.start ≤ error.start && error.start < last.stop

theorem errorsBetween_outside (nonempty : ∀ token ∈ tokens, token.text ≠ [])
    (outside : ∀ token ∈ tokens, token.stop ≤ first.start ∨ last.stop ≤ token.start) :
    errorsBetween first last (tokens.filterMap error?) = [] := by
  apply List.filter_eq_nil_iff.2
  intro error member
  obtain ⟨token, present, found⟩ := List.mem_filterMap.1 member
  have start := (span_of_error? found).1
  have long := start_lt_stop (nonempty token present)
  have apart := outside token present
  simp only [Bool.and_eq_true, decide_eq_true_eq]
  omega

theorem errorsBetween_inside (nonempty : ∀ token ∈ tokens, token.text ≠ [])
    (inside : ∀ token ∈ tokens, first.start ≤ token.start ∧ token.stop ≤ last.stop) :
    errorsBetween first last (tokens.filterMap error?) = tokens.filterMap error? := by
  apply List.filter_eq_self.2
  intro error member
  obtain ⟨token, present, found⟩ := List.mem_filterMap.1 member
  have start := (span_of_error? found).1
  have long := start_lt_stop (nonempty token present)
  have within := inside token present
  simp only [Bool.and_eq_true, decide_eq_true_eq]
  omega

/-- Of tokens in order, the errors from one on up to another are those of the tokens between them. -/
theorem errorsBetween_eq {before part after : List Token}
    (nonempty : ∀ token ∈ before ++ part ++ after, token.text ≠ [])
    (ordered : InOrder (before ++ part ++ after)) (head : part.head? = some first)
    (final : part.getLast? = some last) :
    errorsBetween first last ((before ++ part ++ after).filterMap error?) = part.filterMap error? := by
  obtain ⟨inside, -, behind⟩ := List.pairwise_append.1 ordered
  obtain ⟨-, inPart, ahead⟩ := List.pairwise_append.1 inside
  have early : errorsBetween first last (before.filterMap error?) = [] := by
    apply errorsBetween_outside fun token member => nonempty token (by simp [member])
    exact fun token member => .inl (ahead token member first (List.mem_of_head? head))
  have between : errorsBetween first last (part.filterMap error?) = part.filterMap error? := by
    apply errorsBetween_inside fun token member => nonempty token (by simp [member])
    exact fun token member => ⟨start_le_of_mem inPart head member, stop_le_of_mem inPart final member⟩
  have late : errorsBetween first last (after.filterMap error?) = [] := by
    apply errorsBetween_outside fun token member => nonempty token (by simp [member])
    intro token member
    exact .inr (behind last (List.mem_append_right _ (List.mem_of_getLast? final)) token member)
  simp only [errorsBetween] at early between late ⊢
  simp only [List.filterMap_append, List.filter_append, early, between, late, List.nil_append,
    List.append_nil]

end Token

namespace Expression

/-- How many of `count` members stand before a bound. A negative bound counts from the end. -/
def place (count : Nat) (bound : Int) : Nat :=
  if bound < 0 then (count + bound).toNat else bound.toNat

/-- The slice between two bounds, each of which may count from the end. -/
def cut (expression : Expression) (start : Int) (stop : Option Int) : Expression :=
  expression.slice (place expression.tokens.length start) (stop.map (place expression.tokens.length))

/-- No token is empty, they stand one after another, and the errors are those of the tokens. -/
structure Aligned (expression : Expression) : Prop where
  nonempty : ∀ token ∈ expression.tokens, token.text ≠ []
  ordered : Token.InOrder expression.tokens
  errors : expression.errors = expression.tokens.filterMap Token.error?

theorem ofText_aligned (text : Text) (globalIndex : Int) : (ofText text globalIndex).Aligned where
  nonempty := (ofText_parts text globalIndex).nonempty
  ordered := (ofText_ordered text globalIndex).tokens
  errors := (lexing_loses_nothing text globalIndex).2.2

variable {expression : Expression}

theorem tokens_slice (start : Nat) (stop : Option Nat) : (expression.slice start stop).tokens =
    (expression.tokens.take (stop.getD expression.tokens.length)).drop start := by
  cases stop with
  | none => simp [slice]
  | some stop => rfl

theorem slice_globalIndex (start : Nat) (stop : Option Nat) :
    (expression.slice start stop).globalIndex = expression.globalIndex := rfl

theorem slice_isInfix (start : Nat) (stop : Option Nat) :
    (expression.slice start stop).tokens <:+: expression.tokens := by
  rw [tokens_slice]
  exact (List.drop_suffix _ _).isInfix.trans (List.take_prefix _ _).isInfix

theorem errors_slice_nil {start : Nat} {stop : Option Nat}
    (none : (expression.slice start stop).tokens = []) : (expression.slice start stop).errors = [] := by
  simp only [slice] at none ⊢
  simp [none]

theorem errors_slice_cons {start : Nat} {stop : Option Nat} {first : Token} {rest : List Token}
    (tokens : (expression.slice start stop).tokens = first :: rest) :
    (expression.slice start stop).errors =
      Token.errorsBetween first (rest.getLast?.getD first) expression.errors := by
  simp only [slice] at tokens ⊢
  simp only [tokens, List.head?_cons, List.getLast?_cons, Token.errorsBetween]

namespace Aligned

variable (aligned : expression.Aligned)

include aligned

/-- A slice has the errors of its tokens. -/
theorem errors_slice (start : Nat) (stop : Option Nat) : (expression.slice start stop).errors =
    (expression.slice start stop).tokens.filterMap Token.error? := by
  obtain ⟨before, after, whole⟩ : (expression.slice start stop).tokens <:+: expression.tokens :=
    slice_isInfix start stop
  cases tokens : (expression.slice start stop).tokens with
  | nil => simpa using errors_slice_nil tokens
  | cons first rest =>
      have nonempty := aligned.nonempty
      have ordered := aligned.ordered
      rw [errors_slice_cons tokens, aligned.errors]
      rw [← whole, tokens] at nonempty ordered ⊢
      exact Token.errorsBetween_eq nonempty ordered rfl List.getLast?_cons

theorem slice (start : Nat) (stop : Option Nat) : (expression.slice start stop).Aligned where
  nonempty token member := aligned.nonempty token (mem_of_mem_slice member)
  ordered := aligned.ordered.sublist (slice_isInfix start stop).sublist
  errors := aligned.errors_slice start stop

/-- Two slices that meet share out the errors. -/
theorem errors_append (bound : Nat) :
    (expression.slice 0 (some bound)).errors ++ (expression.slice bound none).errors =
      expression.errors := by
  rw [aligned.errors_slice, aligned.errors_slice, aligned.errors, ← List.filterMap_append]
  exact congrArg _ (List.take_append_drop bound expression.tokens)

/-- No two errors start at the same place. -/
theorem errors_rise : expression.errors.Pairwise fun a b => a.start < b.start := by
  rw [aligned.errors, List.pairwise_filterMap]
  apply aligned.ordered.imp_of_mem
  intro a b before _ apart first found second alsoFound
  have long := Token.start_lt_stop (aligned.nonempty a before)
  rw [(Token.span_of_error? found).1, (Token.span_of_error? alsoFound).1]
  exact Nat.lt_of_lt_of_le long apart

/-- A slice of a slice is a slice of the whole, up to the nearer of the two ends. -/
theorem slice_slice (start further : Nat) (stop shorter : Option Nat) :
    (expression.slice start stop).slice further shorter =
      expression.slice (start + further) (stop.merge min (shorter.map (start + ·))) := by
  have tokens : ((expression.slice start stop).slice further shorter).tokens =
      (expression.slice (start + further) (stop.merge min (shorter.map (start + ·)))).tokens := by
    simp only [Expression.slice]
    cases stop with
    | none => cases shorter <;> simp [List.drop_drop, List.take_drop]
    | some stop => cases shorter <;> simp [List.drop_drop, List.take_drop, List.take_take, Nat.min_comm]
  have errors := (aligned.slice start stop).errors_slice further shorter
  rw [tokens, ← aligned.errors_slice] at errors
  exact (Expression.mk.injEq ..).mpr ⟨rfl, rfl, tokens, errors⟩

end Aligned

end Expression

end ChoiceScript
