import ChoiceScript.Proofs.Expression.Shape
import ChoiceScript.Proofs.Mention.Layout
import ChoiceScript.Proofs.Parser.Inline
import ChoiceScript.Proofs.Resume

/-! # Constructs mention variables from left to right

A construct mentions variables between the place where its contents start and the place where reading
goes on, and an expression in its text. So what is read one after another is mentioned one after
another, by induction on the length of the text. A construct that is given up has mentioned nothing,
so that what stands in it can be read again. Errors lie between the opener of a construct and the end
of its text. No construct fails.
-/

namespace ChoiceScript

/-- A way to read expressions reports what lies in their texts only, and mentions stand apart. -/
def Descent.Lays (source : Source) (mayFail : Prop) {bound : Nat} (descend : Descent bound) : Prop :=
  ∀ text shorter index context, Parser.Lays source context mayFail (fun _ => True) index
    (index + text.length) index (index + text.length) (descend text shorter index)

theorem Descent.Lays.weaken {source : Source} {mayFail : Prop} {low high : Nat}
    {descend : Descent high} (lays : descend.Lays source mayFail) (le : low ≤ high) :
    (descend.weaken le).Lays source mayFail :=
  fun text shorter => lays text (Nat.lt_of_lt_of_le shorter le)

namespace Parser

/-- The end of a line lies in the text. -/
theorem lineEnd_le (text : Text) (start : Nat) : lineEnd text start ≤ text.length := by
  unfold lineEnd
  cases found : Text.lineEnd? text start with
  | none => exact Nat.le_refl _
  | some stop => exact Text.lineEnd?_le found

variable {source : Source} {context : Context} {mayFail : Prop} {text : Text}
  {openLength origin first last lo hi : Int} {start : Nat}

theorem lays_complainUnclosed {notice : Notice} (fit : notice.message.fits [] = true)
    (long : 0 ≤ openLength) (inside : start ≤ text.length)
    (before : first ≤ start - openLength + origin) (behind : origin + text.length ≤ last) :
    Lays source context mayFail (fun _ => True) first last lo hi
      (complainUnclosed notice text openLength origin start) := by
  have le := le_lineEnd inside
  have ends := lineEnd_le text start
  exact .complain fit before (by omega) (by omega)

section Shorter

variable {descend : Descent text.length} (lays : descend.Lays source mayFail)

include lays

theorem lays_referenceWith (long : 0 ≤ openLength) (inside : start ≤ text.length)
    (before : first ≤ start - openLength + origin) (behind : origin + text.length ≤ last) :
    Lays source context mayFail (· = text.resumeReference start) first last (start + origin)
      (text.resumeReference start + origin)
      (referenceWith text descend openLength origin start) := by
  have forward := Text.le_resumeReference text start
  apply Lays.within
  apply Lays.bind (text.resumeReference start + origin)
  · unfold referenceContents
    split
    · exact lays_complainUnclosed rfl long inside before behind
    · rename_i contents span
      have fits := Text.length_lt_of_matchingSpan span
      split
      · exact .complain rfl before (by omega) (by omega)
      · rename_i solid
        have stop := Text.resumeReference_eq span (by simpa using solid)
        exact (lays _ _ _ _).widen (by omega) (by omega) (Int.le_refl _) (by omega)
  · exact fun _ _ => .pure rfl
  · omega
  · omega

theorem lays_parenthesesWith (inside : start ≤ text.length)
    (before : first ≤ start - 1 + origin) (behind : origin + text.length ≤ last) :
    Lays source context mayFail (· = text.resumeGroup '(' ')' start) first last (start + origin)
      (text.resumeGroup '(' ')' start + origin) (parenthesesWith text descend origin start) := by
  have forward := Text.le_resumeGroup text '(' ')' start
  apply Lays.within
  apply Lays.bind (text.resumeGroup '(' ')' start + origin)
  · unfold parenthesesContents
    split
    · exact lays_complainUnclosed rfl (by omega) inside before behind
    · rename_i contents span
      have fits := Text.length_lt_of_matchingSpan span
      have stop := Text.resumeGroup_eq span
      exact (lays _ _ _ _).widen (by omega) (by omega) (Int.le_refl _) (by omega)
  · exact fun _ _ => .pure rfl
  · omega
  · omega

/-- An option is read as a row of replacements. -/
theorem lays_optionWith : Lays source context mayFail (fun _ => True) origin (origin + text.length)
    origin (origin + text.length) (optionWith text descend origin) := by
  have same := Opener.length_blankMultireplaces text
  have order := Opening.between_inOrder (Opener.blankMultireplaces text) 0
    (Opener.blankMultireplaces text).length
  apply (Laid.spanning _ _ _ _).forM (fun opening => opening.contents + origin)
    (fun opening => opening.resume (Opener.blankMultireplaces text) + origin)
  · intro opening member
    rw [Opening.resume_of_replacement _ (Opening.replacement_of_mem_between member)]
    exact (lays_referenceWith (lays.weaken _) (by omega) (Opening.contents_le_of_mem_between member)
      (by simp only [Opening.contents]; omega) (by omega)).discard
  · intro opening member
    have := Opening.contents_le_resume (Opener.blankMultireplaces text) opening
    have := Opening.resume_le (Opening.contents_le_of_mem_between member)
    omega
  · refine order.apart.imp fun {a b} apart => ?_
    simp only [Opening.contents]
    omega
  · omega

omit lays in
theorem lays_optionsWith {bound : Nat} {descend : Descent bound} (lays : descend.Lays source mayFail)
    {options : List Piece} (short : ∀ option ∈ options, option.text.length < bound)
    (inside : ∀ option ∈ options, lo ≤ option.start + origin ∧ option.stop + origin ≤ hi)
    (apart : options.Pairwise fun a b => a.stop ≤ b.start) (le : lo ≤ hi) (before : first ≤ lo)
    (behind : hi ≤ last) : Lays source context mayFail (fun _ => True) first last lo hi
      (optionsWith descend origin options short) := by
  induction options generalizing lo with
  | nil => exact .pure trivial
  | cons option options ih =>
      obtain ⟨ahead, later⟩ := List.pairwise_cons.1 apart
      obtain ⟨starts, stops⟩ := inside option (by simp)
      have forward : option.stop = option.start + option.text.length := rfl
      apply Lays.bind (option.stop + origin)
      · exact (lays_optionWith (lays.weaken _)).widen (by omega) (by omega) starts (by omega)
      · intro _ _
        refine ih _ (fun other member => ⟨?_, (inside other (by simp [member])).2⟩) later stops
          (by omega)
        have := ahead other member
        omega
      · omega
      · exact stops

omit lays in
theorem lays_complainNested {multireplace : Multireplace} (placed : multireplace.Placed text start)
    (starts : start ≤ multireplace.test.start) (before : first ≤ start + origin) (behind : origin + text.length ≤ last) :
    Lays source context mayFail (fun _ => True) first last lo hi
      (complainNested text multireplace origin) := by
  unfold complainNested
  dsimp only
  split
  · exact .pure trivial
  · rename_i skipped opener found
    have fits := Opener.seek_bound Opener.length_le_of_multireplaceAt? found
    have stop := placed.stop_le
    have testStop := placed.test_stop
    have test : multireplace.test.start ≤ multireplace.test.stop := Nat.le_add_right _ _
    rw [List.length_drop, List.length_take, Nat.min_eq_left (by omega)] at fits
    refine .complain rfl (by omega) ?_ ?_
    · split
      · change _ ≤ ((_ : Nat) : Int) + ((_ : Nat) : Int) + 1 + origin
        omega
      · change _ ≤ ((_ : Nat) : Int) + origin
        omega
    · split
      · rename_i inner span
        have := Text.length_lt_of_matchingSpan span
        change ((_ : Nat) : Int) + ((_ : Nat) : Int) + 1 + origin ≤ _
        omega
      · change ((_ : Nat) : Int) + origin ≤ _
        omega

/-- The test stands before the options. -/
theorem lays_parts {multireplace : Multireplace}
    (found : Multireplace.read? text start = some multireplace)
    (before : first ≤ start + origin) (behind : origin + text.length ≤ last) :
    Lays source context mayFail (fun _ => True) first last (start + origin)
      (multireplace.stop + origin) (do
      descend multireplace.test.text (Multireplace.length_lt_of_read? found).1
        (multireplace.test.start + origin)
      optionsWith descend origin multireplace.options (Multireplace.length_lt_of_read? found).2) := by
  have placed := Multireplace.placed_of_read? found
  have order := Multireplace.inOrder_of_read? found
  have starts := order.start_le
  have testStop := placed.test_stop
  have stop := placed.stop_le
  have forward : multireplace.test.stop =
      multireplace.test.start + multireplace.test.text.length := rfl
  apply Lays.bind (multireplace.test.stop + origin)
  · exact (lays _ _ _ _).widen (by omega) (by omega) (by omega) (by omega)
  · intro _ _
    apply lays_optionsWith lays _ _ order.apart
    · omega
    · omega
    · omega
    · intro option member
      have := order.test_stop option member
      have := (placed.options option member).2
      omega
  · omega
  · omega

theorem lays_multireplaceContents {nested : Bool} (long : 0 ≤ openLength)
    (inside : start ≤ text.length) (before : first ≤ start - openLength + origin)
    (behind : origin + text.length ≤ last) :
    Lays source context mayFail (fun _ => True) first last (start + origin)
      (Multireplace.resume text start + origin)
      (multireplaceContents text descend openLength origin start nested) := by
  have forward := Multireplace.le_resume text start
  unfold multireplaceContents
  dsimp only
  split
  · exact lays_complainUnclosed rfl long inside before behind
  · rename_i multireplace found
    have placed := Multireplace.placed_of_read? found
    have starts := placed.stop
    have stop := placed.stop_le
    have testStop := placed.test_stop
    have order := Multireplace.inOrder_of_read? found
    have testStarts := order.start_le
    apply (Laid.spanning _ _ _ _).branch (by omega)
    · exact fun _ => Lays.complain rfl before (by omega) (by omega)
    · exact fun _ => lays_complainNested placed testStarts (by omega) behind
    · intro _ _
      split
      · exact Lays.complain rfl before (by omega) (by omega)
      · exact Lays.complain rfl (by simp only [Piece.stop]; omega) (by omega) (by omega)
      · rename_i option flaw
        have member := Multireplace.mem_of_flaw? flaw
        have := (placed.options option member).2
        have := order.test_stop option member
        have test : multireplace.test.start ≤ multireplace.test.stop := Nat.le_add_right _ _
        have forward : option.start ≤ option.stop := Nat.le_add_right _ _
        exact Lays.complain rfl (by omega) (by omega) (by omega)
      · rename_i usable
        rw [Multireplace.resume_eq found usable]
        exact lays_parts lays found (by omega) behind

theorem lays_multireplaceWith (long : 0 ≤ openLength) (inside : start ≤ text.length)
    (before : first ≤ start - openLength + origin) (behind : origin + text.length ≤ last) :
    Lays source context mayFail (· = Multireplace.resume text start) first last (start + origin)
      (Multireplace.resume text start + origin)
      (multireplaceWith text descend openLength origin start) := by
  have forward := Multireplace.le_resume text start
  apply (Laid.spanning _ _ _ _).after (by omega)
    (.isInside .multireplacement (.of_silent rfl (by simp)))
  intro nested _
  apply Lays.within
  apply Lays.bind _ (lays_multireplaceContents lays long inside before behind)
  · exact fun _ _ => .pure rfl
  · omega
  · omega

theorem lays_openingWith {opening : Opening} (inside : opening.contents ≤ text.length)
    (opens : first ≤ opening.start + origin) (behind : origin + text.length ≤ last) :
    Lays source context mayFail (fun _ => True) first last (opening.contents + origin)
      (opening.resume text + origin) (openingWith text descend origin opening) := by
  have before : first ≤ opening.contents - opening.opener.length + origin := by
    simp only [Opening.contents]
    omega
  unfold openingWith
  cases kind : opening.opener.kind with
  | replacement =>
      rw [Opening.resume_of_replacement text kind]
      exact (lays_referenceWith lays (Int.natCast_nonneg _) inside before behind).discard
  | multireplace =>
      rw [Opening.resume_of_multireplace text kind]
      exact (lays_multireplaceWith lays (Int.natCast_nonneg _) inside before behind).discard

theorem lays_stringWith (inside : start ≤ text.length) (opens : first ≤ start + origin)
    (behind : origin + text.length ≤ last) :
    Lays source context mayFail (· = (Opening.inString text start).2) first last (start + origin)
      ((Opening.inString text start).2 + origin) (stringWith text descend origin start) := by
  have order := Opening.inString_inOrder text start
  obtain ⟨forward, -, within⟩ := Opening.inString_stop inside
  apply Lays.bind ((Opening.inString text start).2 + origin)
  · apply (Laid.spanning _ _ _ _).forM (fun opening => opening.contents + origin)
      (fun opening => opening.resume text + origin)
    · intro opening member
      have after := order.after opening member
      exact lays_openingWith lays (Opening.contents_le_of_mem_inString member) (by omega) behind
    · intro opening member
      have := order.after opening member
      have := Opening.contents_le_resume text opening
      have := within opening member
      simp only [Opening.contents] at *
      omega
    · refine order.apart.imp fun {a b} apart => ?_
      simp only [Opening.contents]
      omega
    · omega
  · exact fun _ _ => .pure rfl
  · omega
  · omega

end Shorter

variable {index : Int}

theorem lays_tokenWith {token : Token} {descend : Descent token.text.length}
    (lays : descend.Lays source mayFail) (stands : token.StandsIn text 0) :
    Lays source context mayFail (fun _ => True) (index + token.start) (index + token.stop)
      (index + token.start) (index + token.stop) (tokenWith index token descend) := by
  have nonempty : 1 ≤ token.text.length := List.length_pos_iff.2 stands.nonempty
  have opens := Int.le_refl (index + token.start)
  have behind : index + token.start + token.text.length ≤ index + token.stop := by
    simp only [Token.stop]
    omega
  unfold tokenWith
  dsimp only
  split
  · rename_i kind
    have inside := openLength_le (stands.brace kind)
    have stop := Text.resumeReference_le inside
    exact (lays_referenceWith lays (Int.natCast_nonneg _) inside (by omega) behind).discard.widen
      opens (Int.le_refl _) (by omega) (by omega)
  · have stop := (Opening.inString_stop nonempty).2.1
    exact (lays_stringWith lays nonempty (by omega) behind).discard.widen opens (Int.le_refl _) (by omega)
      (by omega)
  · have stop : token.text.resumeGroup '(' ')' 1 ≤ token.text.length := Text.resumeGroup_le nonempty
    exact (lays_parenthesesWith lays nonempty (by omega) behind).discard.widen opens (Int.le_refl _)
      (by omega) (by omega)
  · exact (Lays.emitReference stands.nonempty opens behind).widen opens (Int.le_refl _) opens behind
  · exact .pure trivial

/-- Tokens that stand one after another are read in order. -/
theorem lays_tokensWith {tokens : List Token} {descend : ∀ token ∈ tokens, Descent token.text.length}
    (lays : ∀ token member, (descend token member).Lays source mayFail)
    (stands : ∀ token ∈ tokens, token.StandsIn text 0) (order : Token.InOrder tokens)
    (inside : ∀ token ∈ tokens, lo ≤ index + token.start ∧ index + token.stop ≤ hi) (le : lo ≤ hi)
    (before : first ≤ lo) (behind : hi ≤ last) : Lays source context mayFail (fun _ => True)
      first last lo hi (tokensWith index tokens descend) := by
  induction tokens generalizing lo with
  | nil => exact .pure trivial
  | cons token tokens ih =>
      obtain ⟨ahead, later⟩ := List.pairwise_cons.1 order
      obtain ⟨starts, stops⟩ := inside token (by simp)
      have forward := token.start_le_stop
      apply Lays.bind _ ((lays_tokenWith (lays token _) (stands token (by simp))).widen (by omega)
        (by omega) starts (Int.le_refl _))
      · intro _ _
        refine ih (fun _ _ => lays _ _) (fun other member => stands other (by simp [member])) later
          (fun other member => ⟨?_, (inside other (by simp [member])).2⟩) stops (by omega)
        have := ahead other member
        omega
      · omega
      · exact stops

/-- Lexing errors mention nothing, and lie where they are found. -/
theorem lays_lexErrors {expression : Expression} (ordered : expression.Ordered)
    (inside : ∀ error ∈ expression.errors, first ≤ expression.globalIndex + error.start ∧
      expression.globalIndex + error.stop ≤ last) (le : lo ≤ hi) :
    Lays source context mayFail (fun _ => True) first last lo hi (lexErrors expression) := by
  obtain ⟨diagnostics, made, framed⟩ : ∃ diagnostics,
      expression.diagnostics source.document = .ok diagnostics ∧
      ∀ diagnostic ∈ diagnostics, source.document.Frames first last diagnostic.range := by
    apply Outcome.mapM_ok
    intro error member
    obtain ⟨before, behind⟩ := inside error member
    have forward : expression.globalIndex + error.start ≤ expression.globalIndex + error.stop := by
      have := ordered.errors error member
      omega
    have made : ∃ diagnostic, error.problem.notice.between source.document
        (expression.globalIndex + error.start) (expression.globalIndex + error.stop) [] =
          .ok diagnostic ∧ source.document.Covers diagnostic.range := Notice.between_ok forward rfl
    exact made.imp fun _ made => ⟨made.1, frames_of_between made.1 before forward behind⟩
  apply Adds.readDocument fun _ => rfl
  apply Lays.bind lo (.lift made)
  · rintro _ rfl
    exact (Laid.spanning _ _ _ _).forM_silent (fun diagnostic member =>
      Lays.reportError (framed diagnostic member)) le
  · exact Int.le_refl _
  · exact le

/-- What expressions of any length report lies in their texts, and what they mention stands apart. -/
theorem lays_walk (text : Text) (index : Int) : Lays source context mayFail (fun _ => True) index
    (index + text.length) index (index + text.length) (walk text index) := by
  induction shorter : text.length using Nat.strongRecOn generalizing text index context with
  | ind length ih =>
      subst shorter
      have order := Expression.ofText_ordered text index
      have stands : ∀ token ∈ (Expression.ofText text index).tokens, token.StandsIn text 0 :=
        fun token => Expression.standsIn_of_mem_tokens
      rw [walk]
      apply Lays.bind (index + text.length)
      · apply lays_tokensWith _ stands order.tokens
        · intro token member
          have := (stands token member).stop_le
          omega
        · omega
        · exact Int.le_refl _
        · exact Int.le_refl _
        · intro token member inner short place inside
          have := Expression.length_le_of_mem_tokens member
          exact ih inner.length (by omega) inner place rfl
      · refine fun _ _ => lays_lexErrors order (fun error member => ?_) (Int.le_refl _)
        have ends := Expression.error_stop_le member
        change index ≤ index + error.start ∧ index + error.stop ≤ index + text.length
        omega
      · omega
      · exact Int.le_refl _

theorem lays_descent (bound : Nat) : (descent bound).Lays source mayFail :=
  fun text _ index _ => lays_walk text index

theorem lays_expression (text : Text) (index : Int) :
    Lays source context mayFail (· = Expression.ofText text index) index (index + text.length) index
      (index + text.length) (expression text index) := by
  apply Lays.bind _ (lays_walk text index)
  · exact fun _ _ => .pure rfl
  · omega
  · exact Int.le_refl _

/-- An expression is always read. All that it reports lies in its text, and its mentions follow one
another, however references, groups, strings and multireplaces nest in it and whatever is wrong with
them. -/
theorem expression_contained (source : Source) (text : Text) (index : Nat)
    (inside : index + text.length ≤ source.document.text.length) (progress : Progress) :
    ∃ new, expression text index source progress =
        (.ok (Expression.ofText text index), { progress with reports := progress.reports ++ new }) ∧
      Contained source.document index (index + text.length) new := by
  have lays : Lays source ⟨progress.command, progress.stack⟩ False
      (· = Expression.ofText text index) index (index + text.length) index (index + text.length)
      (expression text index) := lays_expression text index
  obtain ⟨outcome, new, settles, laid, ran⟩ := lays
  have here := ran source.document.version progress.reports
  cases outcome with
  | error fault => exact settles.elim
  | ok value =>
      obtain rfl : value = Expression.ofText text index := settles
      exact ⟨new, here, Laid.contained (by exact_mod_cast laid) inside⟩

/-- Mentions in a group and a reference, in a string and a multireplace in it, and behind an opener that
is not closed, where reading starts again. A reference that holds nothing stands among them. -/
def crowdedExpression : Text :=
  "(a + \x7bb\x7d) & \"$\x7bc\x7d @\x7bd e|$\x7bf\x7d\x7d $\x7b \x7d $\x7bg $\x7bi\x7d\" and h".toList

def crowdedExpressionSource : Source :=
  ⟨⟨"file:///game/a.txt", "*if ".toList ++ crowdedExpression, 0⟩, "startup.txt"⟩

theorem crowdedExpression_contained :
    4 + crowdedExpression.length ≤ crowdedExpressionSource.document.text.length ∧
    ∃ new, expression crowdedExpression (4 : Nat) crowdedExpressionSource {} =
        (.ok (Expression.ofText crowdedExpression (4 : Nat)), ⟨none, [], new⟩) ∧
      Contained crowdedExpressionSource.document 4 (4 + crowdedExpression.length) new := by
  have inside : 4 + crowdedExpression.length ≤ crowdedExpressionSource.document.text.length := by decide
  exact ⟨inside, expression_contained crowdedExpressionSource crowdedExpression 4 inside {}⟩

/-- Lexing errors mention nothing, wherever they are. -/
theorem reads_lexErrors {expression : Expression} (ordered : expression.Ordered) (le : lo ≤ hi) :
    Reads source context mayFail (fun _ => True) lo hi (lexErrors expression) := by
  obtain ⟨diagnostics, made, -⟩ := diagnostics_ok ordered source.document
  apply Reads.readDocument fun _ => rfl
  apply Reads.after le (.lift made)
  intro _ _
  exact .forM_silent (fun _ _ => .reportError) le

theorem reads_lexedExpression {expression : Expression} (ordered : expression.Ordered)
    (stands : ∀ token ∈ expression.tokens, token.StandsIn text 0)
    (inside : ∀ token ∈ expression.tokens,
      lo ≤ expression.globalIndex + token.start ∧ expression.globalIndex + token.stop ≤ hi)
    (le : lo ≤ hi) :
    Reads source context mayFail (fun _ => True) lo hi (lexedExpression expression) := by
  apply Reads.bind _ (lays_tokensWith (fun token _ => lays_descent token.text.length) stands
    ordered.tokens inside le (Int.le_refl _) (Int.le_refl _)).reads
  · exact fun _ _ => reads_lexErrors ordered (Int.le_refl _)
  · exact le
  · exact Int.le_refl _

end Parser

end ChoiceScript
