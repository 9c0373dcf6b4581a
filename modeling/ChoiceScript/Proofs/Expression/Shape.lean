import ChoiceScript.Expression.Shape
import ChoiceScript.Proofs.Expression.Tokens

/-! # Where shape errors stand

Merging calls keeps tokens in order, and every error is on a token, after one, or runs from one
token to a later one. So no error ends before it starts. All errors are of a few kinds, which are found
in expressions only.
-/

namespace ChoiceScript

namespace Token

theorem start_le_stop (token : Token) : token.start ≤ token.stop := Nat.le_add_right _ _

theorem call_stop {function arguments : Token} (isCall : function.isCallOf arguments = true) :
    (function.call arguments).stop = arguments.stop := by
  simp only [isCallOf, Bool.and_eq_true, decide_eq_true_eq] at isCall
  simp only [stop] at isCall
  simp only [stop, call, List.length_append]
  omega

/-- A merged token starts where one of the tokens does. -/
theorem exists_start_of_mem_combine {tokens : List Token} {token : Token}
    (member : token ∈ combine tokens) : ∃ original ∈ tokens, token.start = original.start := by
  fun_induction combine tokens with
  | case1 first second rest isCall ih =>
      rcases List.mem_cons.1 member with rfl | later
      · exact ⟨first, by simp, rfl⟩
      · obtain ⟨original, present, same⟩ := ih later
        exact ⟨original, by simp [present], same⟩
  | case2 first second rest other ih =>
      rcases List.mem_cons.1 member with rfl | later
      · exact ⟨token, by simp, rfl⟩
      · obtain ⟨original, present, same⟩ := ih later
        exact ⟨original, List.mem_cons_of_mem _ present, same⟩
  | case3 tokens => exact ⟨token, member, rfl⟩

theorem combine_inOrder {tokens : List Token} (ordered : InOrder tokens) :
    InOrder (combine tokens) := by
  fun_induction combine tokens with
  | case1 first second rest isCall ih =>
      have later := (List.pairwise_cons.1 ordered).2
      refine .cons (fun token member => ?_) (ih (List.pairwise_cons.1 later).2)
      obtain ⟨original, present, same⟩ := exists_start_of_mem_combine member
      rw [call_stop isCall, same]
      exact (List.pairwise_cons.1 later).1 original present
  | case2 first second rest other ih =>
      refine .cons (fun token member => ?_) (ih (List.pairwise_cons.1 ordered).2)
      obtain ⟨original, present, same⟩ := exists_start_of_mem_combine member
      rw [same]
      exact (List.pairwise_cons.1 ordered).1 original present
  | case3 tokens => exact ordered

end Token

namespace Shape

open ShapeError

/-- None of the errors ends before it starts. -/
def Fine (errors : List ShapeError) : Prop := ∀ error ∈ errors, error.start ≤ error.stop

theorem fine_nil : Fine [] := by simp [Fine]

theorem fine_ofToken (notice : Notice) (token : Token) : Fine [ofToken notice token] := by
  simp [Fine, ofToken, token.start_le_stop]

theorem fine_after (notice : Notice) (token : Token) : Fine [after notice token] := by
  simp [Fine, after]

theorem Fine.append {first second : List ShapeError} (before : Fine first) (next : Fine second) :
    Fine (first ++ second) := fun error member =>
  (List.mem_append.1 member).elim (before error) (next error)

theorem fine_surplus {tokens : List Token} (allowed : Nat) (ordered : Token.InOrder tokens) :
    Fine (surplus allowed tokens) := by
  have rest := ordered.sublist (List.drop_sublist allowed tokens)
  unfold surplus
  cases left : tokens.drop allowed with
  | nil => exact fine_nil
  | cons first others =>
      rw [left] at rest
      simp only [Fine, List.mem_singleton, forall_eq]
      rcases List.eq_nil_or_concat others with rfl | ⟨init, last, rfl⟩
      · exact first.start_le_stop
      · have apart := (List.pairwise_cons.1 rest).1 last (by simp)
        have := first.start_le_stop
        have := last.start_le_stop
        simp only [List.concat_eq_append, List.getLastD_concat]
        omega

theorem fine_operationErrors (first operator : Token) (operand : Option Token) :
    Fine (operationErrors first operator operand) := by
  unfold operationErrors
  repeat' split
  all_goals first
    | exact fine_nil
    | exact fine_ofToken _ _
    | exact fine_after _ _

theorem fine_valueErrors {tokens : List Token} (ordered : Token.InOrder tokens) :
    Fine (valueErrors tokens) := by
  unfold valueErrors
  repeat' split
  all_goals first
    | exact fine_nil
    | exact fine_ofToken _ _
    | exact fine_after _ _
    | exact fine_surplus 2 ordered
    | exact (fine_surplus 3 ordered).append (fine_operationErrors _ _ _)

theorem fine_junctionErrors (operator : Token) (operand : Option Token) :
    Fine (junctionErrors operator operand) := by
  unfold junctionErrors
  repeat' split
  all_goals first
    | exact fine_nil
    | exact fine_ofToken _ _
    | exact fine_after _ _

theorem fine_conditionErrors {tokens : List Token} (ordered : Token.InOrder tokens) :
    Fine (conditionErrors tokens) := by
  have first : ∀ token, Fine (if callsNonBoolean token then [ofToken .nonBooleanFunction token]
      else []) := by
    intro token
    split
    · exact fine_ofToken _ _
    · exact fine_nil
  cases tokens with
  | nil => exact fine_nil
  | cons token rest =>
      unfold conditionErrors
      dsimp only
      split
      · exact fine_nil
      split
      · exact fine_ofToken _ _
      refine (first token).append ?_
      cases rest with
      | nil => exact fine_nil
      | cons operator operands =>
          exact (fine_surplus 3 ordered).append (fine_junctionErrors _ _)

/-- The kinds of errors in the shape of an expression. -/
def notices : List Notice := [.tooManyElements, .missingNumber, .notANumber, .missingOperator,
  .numberOperator, .numberOperand, .stringOperator, .stringOperand, .invalidValue,
  .nonBooleanFunction, .missingBooleanOperator, .missingBooleanValue, .invalidCondition]

/-- All of the errors are of these kinds. -/
def Known (errors : List ShapeError) : Prop := ∀ error ∈ errors, error.notice ∈ notices

theorem known_nil : Known [] := by simp [Known]

theorem known_single {error : ShapeError} (member : error.notice ∈ notices) : Known [error] := by
  simpa [Known] using member

theorem Known.append {first second : List ShapeError} (before : Known first) (next : Known second) :
    Known (first ++ second) := List.forall_mem_append.2 ⟨before, next⟩

theorem known_surplus (allowed : Nat) (tokens : List Token) : Known (surplus allowed tokens) := by
  unfold surplus
  split
  · exact known_nil
  · exact known_single (by simp [notices])

theorem known_operationErrors (first operator : Token) (operand : Option Token) :
    Known (operationErrors first operator operand) := by
  unfold operationErrors
  repeat' split
  all_goals first
    | exact known_nil
    | exact known_single (by simp [notices, ofToken, after])

theorem known_valueErrors (tokens : List Token) : Known (valueErrors tokens) := by
  unfold valueErrors
  repeat' split
  all_goals first
    | exact known_nil
    | exact known_single (by simp [notices, ofToken, after])
    | exact known_surplus 2 _
    | exact (known_surplus 3 _).append (known_operationErrors _ _ _)

theorem known_junctionErrors (operator : Token) (operand : Option Token) :
    Known (junctionErrors operator operand) := by
  unfold junctionErrors
  repeat' split
  all_goals first
    | exact known_nil
    | exact known_single (by simp [notices, ofToken, after])

theorem known_conditionErrors (tokens : List Token) : Known (conditionErrors tokens) := by
  have call (token : Token) : Known (if callsNonBoolean token then
      [ofToken .nonBooleanFunction token] else []) := by
    split
    · exact known_single (by simp [notices, ofToken])
    · exact known_nil
  cases tokens with
  | nil => exact known_nil
  | cons token rest =>
      unfold conditionErrors
      dsimp only
      split
      · exact known_nil
      split
      · exact known_single (by simp [notices, ofToken])
      refine (call token).append ?_
      cases rest with
      | nil => exact known_nil
      | cons operator operands => exact (known_surplus 3 _).append (known_junctionErrors _ _)

end Shape

end ChoiceScript
