import ChoiceScript.Proofs.Expression.Calls
import ChoiceScript.Proofs.Expression.Shape
import ChoiceScript.Proofs.Expression.Slices

/-! # Merging loses nothing

A call begins with the name of a function and an open parenthesis, and no such name has a parenthesis in
it. So a call tells the two tokens that it was merged from, even where a slice begins with arguments whose
function is cut off. What is merged once is merged for good, whatever the tokens are.
-/

namespace ChoiceScript

namespace Token

variable {function arguments first : Token} {tokens : List Token}

/-- The name of the function that a call begins with, and its arguments. What is no call is left whole. -/
def parted (token : Token) : List Token :=
  match token.kind with
  | .call =>
    let name := token.text.takeWhile (· ≠ '(')
    [⟨.function, name, token.start⟩,
      ⟨.parentheses, token.text.drop name.length, token.start + name.length⟩]
  | _ => [token]

theorem parted_of_ne {token : Token} (noCall : token.kind ≠ .call) : token.parted = [token] := by
  unfold parted
  split
  · exact absurd ‹_› noCall
  · rfl

theorem parted_call (isCall : function.isCallOf arguments = true)
    (known : function.name ∈ Vocabulary.functions) (opens : arguments.text.head? = some '(') :
    (function.call arguments).parted = [function, arguments] := by
  have plain : ∀ c ∈ function.text, decide (c ≠ '(') = true := by
    have all := List.all_eq_true.1 (function_plain function.name known)
    rwa [name, String.toList_ofList] at all
  have name : (function.text ++ arguments.text).takeWhile (· ≠ '(') = function.text :=
    Text.takeWhile_exact plain (by simp [opens])
  obtain ⟨named, grouped, start⟩ := isCallOf_iff.1 isCall
  rw [stop] at start
  simp only [parted, call, name, List.drop_left]
  rw [← named, ← grouped, ← start]

/-- Where every function name stands before its arguments, the tokens are told by what they are merged
into. -/
theorem Applied.flatMap_parted (applied : Applied tokens) :
    (combine tokens).flatMap parted = tokens := by
  induction applied with
  | nil => rfl
  | call isCall known opens later ih =>
      rw [combine_call isCall, List.flatMap_cons, parted_call isCall known opens, ih]
      rfl
  | other noFunction noCall later ih =>
      rw [combine_other noFunction, List.flatMap_cons, parted_of_ne noCall, ih]
      rfl

/-- Arguments whose function is dropped are a token like others. -/
theorem Applied.drop (applied : Applied tokens) (count : Nat) : Applied (tokens.drop count) := by
  induction applied generalizing count with
  | nil => simpa using Applied.nil
  | @call function arguments tokens isCall known opens later ih =>
      cases count with
      | zero => exact .call isCall known opens later
      | succ count =>
          cases count with
          | zero =>
              have grouped := (isCallOf_iff.1 isCall).2.1
              exact .other (by simp [grouped]) (by simp [grouped]) later
          | succ count => exact ih count
  | other noFunction noCall later ih =>
      cases count with
      | zero => exact .other noFunction noCall later
      | succ count => exact ih count

/-- What holds of tokens and of the calls they make up holds of what they are merged into. -/
theorem forall_mem_combine {holds : Token → Prop} (all : ∀ token ∈ tokens, holds token)
    (calls : ∀ function arguments, function.isCallOf arguments = true → holds function →
      holds arguments → holds (function.call arguments)) :
    ∀ token ∈ combine tokens, holds token := by
  fun_induction combine tokens with
  | case1 first second rest isCall ih =>
      have call := calls first second isCall (all first (by simp)) (all second (by simp))
      exact List.forall_mem_cons.2 ⟨call, ih fun token member => all token (by simp [member])⟩
  | case2 first second rest other ih =>
      have later := ih fun token member => all token (List.mem_cons_of_mem first member)
      exact List.forall_mem_cons.2 ⟨all first List.mem_cons_self, later⟩
  | case3 tokens => exact all

/-- The arguments start where the name ends, so the text of a call stands there in one piece. -/
theorem call_piece {text : Text} (isCall : function.isCallOf arguments = true)
    (name : function.text <+: text.drop function.start)
    (group : arguments.text <+: text.drop arguments.start) :
    (function.call arguments).text <+: text.drop (function.call arguments).start := by
  obtain ⟨behind, whole⟩ := name
  have rest : text.drop arguments.start = behind := by
    rw [(isCallOf_iff.1 isCall).2.2, stop, ← List.drop_drop, ← whole, List.drop_left]
  rw [rest] at group
  simp only [call, ← whole]
  exact (List.prefix_append_right_inj function.text).2 group

theorem combine_cons (apart : ∀ next ∈ tokens.head?, first.isCallOf next = false) :
    combine (first :: tokens) = first :: combine tokens := by
  cases tokens with
  | nil => rfl
  | cons next tokens =>
      have alone := apart next rfl
      rw [combine, if_neg (by simp [alone])]

theorem head?_combine {next : Token} (head : next ∈ (combine tokens).head?) :
    next.kind = .call ∨ next ∈ tokens.head? := by
  fun_induction combine tokens with
  | case1 first second rest isCall ih =>
      obtain rfl : first.call second = next := by simpa using head
      exact .inl rfl
  | case2 first second rest other ih => exact .inr head
  | case3 tokens => exact .inr head

/-- Merging again changes nothing, whatever the tokens are. -/
theorem combine_combine (tokens : List Token) : combine (combine tokens) = combine tokens := by
  fun_induction combine tokens with
  | case1 first second rest isCall ih => rw [combine_other (by simp [call]), ih]
  | case2 first second rest other ih =>
      -- behind a token that takes no arguments comes what came before, or a call
      have apart : ∀ next ∈ (combine (second :: rest)).head?, first.isCallOf next = false := by
        intro next head
        cases head?_combine head with
        | inl call => simp [isCallOf, call]
        | inr same =>
            obtain rfl : second = next := by simpa using same
            simpa using other
      rw [combine_cons apart, ih]
  | case3 tokens short =>
      cases tokens with
      | nil => rfl
      | cons first tokens =>
          cases tokens with
          | nil => rfl
          | cons second rest => exact absurd rfl (short first second rest)

end Token

namespace Expression

/-- From any token of a text on, no combined token is the name of a function, each is a piece of the text,
they stand one after another, and the calls parted are the tokens again. -/
theorem combining_loses_nothing :
    (∀ (text : Text) (globalIndex bound : Int),
      (∀ token ∈ ((ofText text globalIndex).cut bound none).combined,
        token.kind ≠ .function ∧ token.text <+: text.drop token.start) ∧
      ((ofText text globalIndex).cut bound none).combined.Pairwise
        (fun a b => a.start < b.start ∧ a.stop ≤ b.start) ∧
      ((ofText text globalIndex).cut bound none).combined.flatMap Token.parted =
        ((ofText text globalIndex).cut bound none).tokens) ∧
    ∀ tokens, Token.combine (Token.combine tokens) = Token.combine tokens := by
  refine ⟨fun text globalIndex bound => ?_, Token.combine_combine⟩
  have applied := (Lexed.readFrom_applied 0 text).drop
    (place (ofText text globalIndex).tokens.length bound)
  have aligned := (ofText_aligned text globalIndex).slice
    (place (ofText text globalIndex).tokens.length bound) none
  have pieces : ∀ token ∈ ((ofText text globalIndex).cut bound none).tokens,
      token.text <+: text.drop token.start := fun token member =>
    (standsIn_of_mem_tokens (mem_of_mem_slice member)).piece
  have nonempty : ∀ token ∈ ((ofText text globalIndex).cut bound none).combined, token.text ≠ [] :=
    Token.forall_mem_combine aligned.nonempty fun _ _ _ name _ => by simp [Token.call, name]
  have ordered : Token.InOrder ((ofText text globalIndex).cut bound none).combined :=
    Token.combine_inOrder aligned.ordered
  refine ⟨fun token member => ⟨(applied.merged token member).noFunction, ?_⟩, ?_, applied.flatMap_parted⟩
  · exact Token.forall_mem_combine pieces (fun _ _ isCall => Token.call_piece isCall) token member
  · apply ordered.imp_of_mem
    intro a b before _ apart
    exact ⟨Nat.lt_of_lt_of_le (Token.start_lt_stop (nonempty a before)) apart, apart⟩

/-- The last four of five tokens begin with the arguments of a function that is cut off, and end in a
call that is not closed. -/
theorem cut_call_loses_nothing :
    ⟨.call, "round(b".toList, 9⟩ ∈ ((ofText "not(a) + round(b".toList 0).cut (-4) none).combined ∧
    (TokenKind.call ≠ .function ∧ "round(b".toList <+: "not(a) + round(b".toList.drop 9) ∧
    ((ofText "not(a) + round(b".toList 0).cut (-4) none).combined.flatMap Token.parted =
      [⟨.parentheses, "(a)".toList, 3⟩, ⟨.operator, "+".toList, 7⟩, ⟨.function, "round".toList, 9⟩,
        ⟨.parentheses, "(b".toList, 14⟩] := by
  have call : ⟨.call, "round(b".toList, 9⟩ ∈
      ((ofText "not(a) + round(b".toList 0).cut (-4) none).combined := by decide +kernel
  obtain ⟨each, -, parted⟩ := combining_loses_nothing.1 "not(a) + round(b".toList 0 (-4)
  exact ⟨call, each _ call, parted.trans (by decide +kernel)⟩

end Expression

end ChoiceScript
