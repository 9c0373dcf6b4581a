import ChoiceScript.Proofs.Expression.Tokens
import ChoiceScript.Parser.Inline
import ChoiceScript.Proofs.Nesting.Basic

/-! # Constructs in prose and expressions nest

Inside a construct there are references only, and each is read in the constructs around it. A
multireplace in another is reported before its parts are read, so whatever stands in both is reported
later.
-/

namespace ChoiceScript

/-- A way to read expressions reports what is allowed where it reads, or deeper. -/
def Descent.Nests (source : Source) (allowed : Event → Prop) {bound : Nat} (descend : Descent bound) :
    Prop :=
  ∀ text shorter index context, Parser.Nests source allowed context (descend text shorter index)

theorem Descent.Nests.weaken {source : Source} {allowed : Event → Prop} {low high : Nat}
    {descend : Descent high} (nests : descend.Nests source allowed) (le : low ≤ high) :
    (descend.weaken le).Nests source allowed :=
  fun text shorter => nests text (Nat.lt_of_lt_of_le shorter le)

/-- A reference to a variable by a word. -/
def Event.RefersByWord (event : Event) : Prop := event.IsReference ∧ event.Named

theorem Event.RefersByWord.isAside {event : Event} (refers : event.RefersByWord) :
    event.IsAside := by
  cases event with
  | symbol role =>
      cases role with
      | reference => exact refers.2
      | _ => exact refers.1.elim
  | _ => exact refers.1.elim

namespace Parser

variable {source : Source} {allowed : Event → Prop} {context : Context} {text : Text} {origin : Int}
  {start : Nat}

theorem nests_complainUnclosed {notice : Notice} {openLength : Int}
    (reading : notice.OfReading) :
    Nests source allowed context (complainUnclosed notice text openLength origin start) :=
  .complain reading

section Shorter

variable (references : ∀ event, allowed event → event.IsReference)
  {descend : Descent text.length} (nests : descend.Nests source allowed)

include references nests

omit references in
theorem nests_referenceContents {openLength : Int} :
    Nests source allowed context (referenceContents text descend openLength origin start) := by
  unfold referenceContents
  split
  · exact nests_complainUnclosed (by decide)
  · split
    · exact .complain (by decide)
    · exact nests _ _ _ _

theorem nests_referenceWith {openLength : Int} :
    Nests source allowed context (referenceWith text descend openLength origin start) := by
  apply Nests.within (by decide) references (fun same => by cases same)
  exact (nests_referenceContents nests).bind fun _ => .pure

theorem nests_parenthesesWith :
    Nests source allowed context (parenthesesWith text descend origin start) := by
  apply Nests.within (by decide) references (fun same => by cases same)
  apply Adds.giving
  unfold parenthesesContents
  split
  · exact nests_complainUnclosed (by decide)
  · exact nests _ _ _ _

theorem nests_optionWith : Nests source allowed context (optionWith text descend origin) :=
  .forM fun _ _ => (nests_referenceWith references (nests.weaken _)).discard

omit nests in
theorem nests_optionsWith {bound : Nat} {descend : Descent bound} (nests : descend.Nests source allowed)
    {options : List Piece} (short : ∀ option ∈ options, option.text.length < bound) :
    Nests source allowed context (optionsWith descend origin options short) := by
  induction options with
  | nil => exact .pure
  | cons option options ih =>
      exact (nests_optionWith references (nests.weaken _)).bind fun _ => ih _

omit references nests in
theorem nests_complainNested {multireplace : Multireplace} :
    Nests source allowed context (complainNested text multireplace origin) := by
  unfold complainNested
  dsimp only
  split
  · exact .pure
  · exact .complain (by decide)

/-- What is read in a multireplace, if it is in another, is told of first. -/
theorem nests_multireplaceContents {fits : Event → Context → Prop} {deep : Prop}
    {openLength : Int} {nested : Bool}
    (outside : ∀ event place, allowed event → context.Holds event place → fits event place)
    (alone : nested = false → context.Deep → deep) :
    Tells source context fits deep
      (multireplaceContents text descend openLength origin start nested) := by
  unfold multireplaceContents
  dsimp only
  split
  · exact .complain (by decide)
  · rename_i multireplace found
    apply Nests.tellingFirst outside alone nests_complainNested
    split
    · exact .complain (by decide)
    · exact .complain (by decide)
    · exact .complain (by decide)
    · exact (nests _ _ _ _).bind fun _ => nests_optionsWith references nests _

theorem nests_multireplaceWith {openLength : Int} :
    Nests source allowed context (multireplaceWith text descend openLength origin start) := by
  apply Tells.afterIsInside
  apply Adds.within
  apply Adds.giving (nests_multireplaceContents references nests _ _)
  · exact fun event place held inside => ⟨held, inside.leave (by decide) (references event held)⟩
  · exact fun known deep => deep.leave fun _ member => by simp [member] at known

theorem nests_openingWith (opening : Opening) :
    Nests source allowed context (openingWith text descend origin opening) := by
  unfold openingWith
  split
  · exact (nests_referenceWith references nests).discard
  · exact (nests_multireplaceWith references nests).discard

theorem nests_stringWith : Nests source allowed context (stringWith text descend origin start) :=
  (Tells.forM fun opening _ => nests_openingWith references nests opening).bind fun _ => .pure

theorem nests_proseWith {stop : Nat} :
    Nests source allowed context (proseWith text descend origin start stop) :=
  .forM fun opening _ => nests_openingWith references nests opening

end Shorter

section Tokens

variable (references : ∀ event, allowed event → event.IsReference)

include references

theorem nests_tokenWith {index : Int} {token : Token} {descend : Descent token.text.length}
    (nests : descend.Nests source allowed)
    (fine : token.kind = .variableName → ∀ location,
      allowed (.symbol .reference (String.ofList token.text) location)) :
    Nests source allowed context (tokenWith index token descend) := by
  unfold tokenWith
  dsimp only
  split
  · exact (nests_referenceWith references nests).discard
  · exact (nests_stringWith references nests).discard
  · exact (nests_parenthesesWith references nests).discard
  · rename_i kind
    exact .emitSymbol (fine kind)
  · exact .pure

theorem nests_tokensWith {index : Int} {tokens : List Token}
    {descend : ∀ token ∈ tokens, Descent token.text.length}
    (nests : ∀ token member, (descend token member).Nests source allowed)
    (fine : ∀ token ∈ tokens, token.kind = .variableName → ∀ location,
      allowed (.symbol .reference (String.ofList token.text) location)) :
    Nests source allowed context (tokensWith index tokens descend) := by
  induction tokens with
  | nil => exact .pure
  | cons token tokens ih =>
      apply (nests_tokenWith references (nests token _) (fine token (by simp))).bind
      exact fun _ => ih (fun _ _ => nests _ _) fun other member => fine other (by simp [member])

end Tokens

/-- Lexing finds errors of reading only. -/
theorem nests_lexErrors {expression : Expression} :
    Nests source allowed context (lexErrors expression) := by
  apply Tells.readDocument fun _ => rfl
  apply Tells.afterLift
  intro diagnostics made
  apply Tells.forM
  intro diagnostic member
  obtain ⟨error, -, found⟩ := (Outcome.mem_mapM made).1 member
  have reading : error.problem.notice.OfReading := by cases error.problem <;> decide
  exact Adds.report (Tidy.error (reading.between found))

/-- What is said of an expression of any length is said of the shorter ones in it first. -/
theorem nests_walk (text : Text) (index : Int) :
    Nests source Event.RefersByWord context (walk text index) := by
  induction shorter : text.length using Nat.strongRecOn generalizing text index context with
  | ind length ih =>
      subst shorter
      rw [walk]
      apply Tells.bind
      · apply nests_tokensWith fun _ held => held.1
        · intro token member inner short place inside
          have := Expression.length_le_of_mem_tokens member
          exact ih inner.length (by omega) inner place rfl
        · intro token member kind location
          exact ⟨trivial, by simpa [Event.Named] using (Expression.standsIn_of_mem_tokens member).word kind⟩
      · exact fun _ => nests_lexErrors

theorem nests_descent (bound : Nat) : (descent bound).Nests source Event.RefersByWord :=
  fun text _ index _ => nests_walk text index

theorem nests_expression (text : Text) (index : Int) :
    Nests source Event.RefersByWord context (expression text index) :=
  (nests_walk text index).bind fun _ => .pure

theorem nests_lexedExpression (references : ∀ event, allowed event → event.IsReference)
    (byWord : ∀ event, event.RefersByWord → allowed event) {expression : Expression}
    (fine : ∀ token ∈ expression.tokens, token.kind = .variableName → ∀ location,
      allowed (.symbol .reference (String.ofList token.text) location)) :
    Nests source allowed context (lexedExpression expression) := by
  apply Tells.bind
  · apply nests_tokensWith references _ fine
    exact fun token _ text _ index _ => (nests_walk text index).allowing byWord
  · exact fun _ => nests_lexErrors

end Parser

end ChoiceScript
