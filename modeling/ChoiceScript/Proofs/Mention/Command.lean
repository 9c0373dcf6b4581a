import ChoiceScript.Proofs.Mention.Inline
import ChoiceScript.Proofs.Parser.Command

/-! # Commands mention variables from left to right

A command mentions variables on the rest of its line, from left to right. A stat chart is the one
exception: it mentions those on the lines below it, and that before anything else there is read.
-/

namespace ChoiceScript

namespace Text

variable {line value : Text}

theorem valueAfter?_length {spacing : Nat} (found : valueAfter? line = some (spacing, value)) :
    spacing + value.length ≤ line.length := by
  induction line generalizing spacing value with
  | nil => simp [valueAfter?] at found
  | cons c line ih =>
      cases line with
      | nil => simp [valueAfter?] at found
      | cons d rest =>
          rw [valueAfter?] at found
          split at found
          · simp at found
          · split at found
            · obtain ⟨⟨further, later⟩, inside, same⟩ := Option.map_eq_some_iff.1 found
              obtain ⟨rfl, rfl⟩ := Prod.mk.inj same
              have := ih inside
              simp only [List.length_cons] at *
              omega
            · obtain ⟨rfl, rfl⟩ := Prod.mk.inj (Option.some.inj found)
              have short := (List.takeWhile_sublist (· ≠ '\n') (l := d :: rest)).length_le
              simp only [List.length_cons] at *
              omega

/-- The second target of a jump stands after the first, on the line. -/
theorem jumpTargets_apart (line : Text) :
    (jumpTargets line).1.text.length ≤ (jumpTargets line).2.start ∧
      (jumpTargets line).2.stop ≤ line.length := by
  have head := jumpTarget_prefix line 0
  have first := head.length_le
  rw [List.drop_zero] at first
  unfold jumpTargets
  dsimp only [Piece.stop]
  have left : (line.drop (jumpTarget line 0).length).length =
      line.length - (jumpTarget line 0).length := List.length_drop
  generalize line.drop (jumpTarget line 0).length = rest at left ⊢
  have padding := (List.takeWhile_sublist isPadding (l := rest)).length_le
  have short : (if jumpTarget line 0 = [] then [] else rest.takeWhile isPadding).length ≤
      rest.length := by
    split
    · exact Nat.zero_le _
    · exact padding
  generalize (if jumpTarget line 0 = [] then [] else rest.takeWhile isPadding) = spacing at short ⊢
  refine ⟨Nat.le_add_right _ _, ?_⟩
  split
  · simp only [List.length_nil]
    omega
  · have head := jumpTarget_prefix rest spacing.length
    have second := head.length_le
    rw [List.length_drop] at second
    omega

end Text

theorem StatChart.le_of_mem_lines {text : Text} {padding : Option Text} {start : Nat}
    {line : Nat × StatLine} (member : line ∈ (readFrom text padding start).lines) :
    start ≤ line.1 := by
  fun_induction readFrom text padding start with
  | case1 => simp at member
  | case2 => simp at member
  | case3 => simp at member
  | case4 padding start read found padding' enough same next block chart ih =>
      rcases List.mem_cons.1 member with rfl | later
      · exact Nat.le_refl _
      · have := ih later
        omega

namespace Parser

variable {source : Source} {context : Context} {mayFail : Prop} {lo hi : Int} {line : Text} {lineIndex : Int}

theorem reads_shapeErrors {expression : Expression} {errors : List ShapeError} (le : lo ≤ hi) :
    Reads source context True (fun _ => True) lo hi (shapeErrors expression errors) :=
  .forM_silent (fun _ _ => .complain (.inl trivial)) le

theorem reads_value (text : Text) (index : Int) : Reads source context True (fun _ => True) index
    (index + text.length) (value text index) := by
  apply Reads.bind _ (lays_expression text index).reads
  · exact fun _ _ => reads_shapeErrors (Int.le_refl _)
  · omega
  · exact Int.le_refl _

theorem reads_condition {command : String} : Reads source context True (fun _ => True) lineIndex
    (lineIndex + line.length) (condition command line lineIndex) := by
  unfold condition
  have short : ∀ read : Text, read.length ≤ line.length →
      Reads source context True (fun _ => True) lineIndex (lineIndex + line.length)
        (expression read lineIndex >>= checkCondition) := by
    intro read le
    apply Reads.bind _ (lays_expression read lineIndex).reads
    · exact fun _ _ => reads_shapeErrors (by omega)
    · omega
    · omega
  dsimp only
  split
  · exact short _ (List.takeWhile_sublist _).length_le
  · exact short _ (Nat.le_refl _)

theorem reads_params (le : lo ≤ hi) :
    Reads source context True (fun _ => True) lo hi (params line lineIndex) :=
  .forM_silent (fun _ _ => .emitOther (by simp) (Int.le_refl _)) le

section Set

variable {expression : Expression} (ordered : expression.Ordered)
  (stands : ∀ token ∈ expression.tokens, token.StandsIn line 0)

include ordered stands

theorem reads_slice {start : Nat} {stop : Option Nat}
    (inside : ∀ token ∈ (expression.slice start stop).tokens,
      lo ≤ expression.globalIndex + token.start ∧ expression.globalIndex + token.stop ≤ hi)
    (le : lo ≤ hi) :
    Reads source context True (fun _ => True) lo hi (lexedExpression (expression.slice start stop)) :=
  reads_lexedExpression (ordered.slice start stop)
    (fun token member => stands token (Expression.mem_of_mem_slice member)) inside le

/-- The target of `*set` is its first token. -/
theorem reads_target {first : Token} {rest : List Token} (tokens : expression.tokens = first :: rest)
    (start : lo ≤ expression.globalIndex) : Reads source context True (fun _ => True) lo
      (expression.globalIndex + first.stop) (target expression first) := by
  have forward := first.start_le_stop
  have only : (expression.slice 0 (some 1)).tokens = [first] := by
    simp only [Expression.slice, tokens, List.take_succ_cons, List.take_zero, List.drop_zero]
  unfold target
  dsimp only
  split
  · apply reads_slice ordered stands
    · intro token member
      rw [only, List.mem_singleton] at member
      subst member
      omega
    · omega
  · apply Reads.after (by omega) (.complain (.inl trivial))
    exact fun _ _ => reads_lexErrors (ordered.slice 0 (some 1)) (by omega)

end Set

/-- What follows the target of `*set` stands on the rest of the line. -/
theorem reads_rest {first : Token} {rest : List Token}
    (tokens : (Expression.ofText line lineIndex).tokens = first :: rest) :
    Reads source context True (fun _ => True) (lineIndex + first.stop) (lineIndex + line.length)
      (lexedExpression ((Expression.ofText line lineIndex).slice 1 none)) := by
  have ordered := Expression.ofText_ordered line lineIndex
  have stands : ∀ token ∈ (Expression.ofText line lineIndex).tokens, token.StandsIn line 0 :=
    fun token => Expression.standsIn_of_mem_tokens
  have fits := (stands first (by simp [tokens])).stop_le
  apply reads_slice ordered stands
  · intro token member
    have present : token ∈ rest := by
      simpa only [Expression.slice, tokens, List.drop_succ_cons, List.drop_zero] using member
    have := (List.pairwise_cons.1 (tokens ▸ ordered.tokens)).1 token present
    have := (stands token (by simp [tokens, present])).stop_le
    simp only [Expression.ofText]
    omega
  · omega

theorem reads_set : Reads source context True (fun _ => True) lineIndex (lineIndex + line.length)
    (set line lineIndex) := by
  have ordered := Expression.ofText_ordered line lineIndex
  have stands : ∀ token ∈ (Expression.ofText line lineIndex).tokens, token.StandsIn line 0 :=
    fun token => Expression.standsIn_of_mem_tokens
  unfold set
  dsimp only
  split
  · exact .complain (.inl trivial)
  · rename_i first rest tokens
    have fits := (stands first (by simp [tokens])).stop_le
    apply Reads.bind (lineIndex + first.stop)
    · exact reads_target ordered stands tokens (Int.le_refl _)
    · intro _ _
      split
      · exact .complain (.inl trivial)
      · apply Reads.bind (lineIndex + line.length) (reads_rest tokens)
        · exact fun _ _ => reads_shapeErrors (Int.le_refl _)
        · omega
        · exact Int.le_refl _
    · omega
    · omega

theorem reads_valueAfter {value? : Option (Nat × Text)} {stop : Int} (first : lo ≤ stop)
    (last : ∀ value ∈ value?, stop + value.1 + value.2.length ≤ hi) :
    Reads source context True (fun _ => True) lo hi (valueAfter value? stop) := by
  cases value? with
  | none => exact .pure trivial
  | some value => exact (reads_value value.2 (stop + value.1)).widen (by omega) (last value rfl)

theorem reads_symbolUse {command : String} {symbol : Text} {value? : Option (Nat × Text)}
    (nonempty : symbol ≠ []) (first : lineIndex + symbol.length ≤ hi)
    (last : ∀ value ∈ value?, lineIndex + symbol.length + value.1 + value.2.length ≤ hi) :
    Reads source context True (fun _ => True) lineIndex hi
      (symbolUse command symbol value? lineIndex) := by
  have positive := List.length_pos_iff.2 nonempty
  have reference : Reads source context True (fun _ => True) lineIndex hi
      (emitSymbol .reference symbol lineIndex) := .emitReference (Int.le_refl _) (by omega)
  have value : Reads source context True (fun _ => True) lineIndex hi
      (valueAfter value? (lineIndex + symbol.length)) := reads_valueAfter (by omega) last
  unfold symbolUse
  dsimp only
  split
  · apply Reads.after (by omega) (.emitOther (by simp) (Int.le_refl _))
    intro _ _
    split
    · exact .after (by omega) (.complain (.inl trivial)) fun _ _ => value
    · exact value
  · exact .after (by omega) (.emitOther (by simp) (Int.le_refl _)) fun _ _ => value
  · exact .emitOther (by simp) (by omega)
  · exact reference
  · exact reference
  · exact reference
  · exact reference
  · exact Adds.lift trivial (.of_silent rfl)

theorem reads_symbolCommand {command : String} : Reads source context True (fun _ => True) lineIndex
    (lineIndex + line.length) (symbolCommand command line lineIndex) := by
  unfold symbolCommand
  split
  · exact reads_params (by omega)
  split
  · exact reads_set
  dsimp only
  split
  · exact .complain (.inl trivial)
  · rename_i symbol nonempty
    have fits := (List.takeWhile_sublist
      (if command = "label" then Text.isLabel else Text.isWord) (l := line)).length_le
    apply reads_symbolUse nonempty
    · omega
    · intro value found
      generalize (line.takeWhile _).length = skipped at fits found ⊢
      split at found
      · cases found
      · have := Text.valueAfter?_length found
        rw [List.length_drop] at this
        omega

theorem reads_computedTarget {target : Text} {index : Int} : Reads source context mayFail (fun _ => True)
    index (index + target.length) (computedTarget target index) := by
  unfold computedTarget
  split
  · have short : target.inside.length = target.length - 2 := by
      simp only [Text.inside, List.length_dropLast, List.length_tail]
      omega
    rename_i brace
    have positive : target ≠ [] := by
      rintro rfl
      cases brace
    have := List.length_pos_iff.2 positive
    exact (lays_expression target.inside (index + 1)).reads.discard.widen (by omega) (by omega)
  · exact .pure trivial

theorem reads_jump {command : String} {commandIndex : Int} :
    Reads source context mayFail (fun _ => True) lineIndex (lineIndex + line.length)
      (jump command commandIndex line lineIndex) := by
  have apart := Text.jumpTargets_apart line
  unfold jump
  generalize Text.jumpTargets line = targets at apart ⊢
  obtain ⟨⟨first, start⟩, ⟨second, skipped⟩⟩ := targets
  simp only [Piece.stop] at apart
  apply Reads.after (by omega) (.locate (by omega))
  intro commandLocation _
  apply Reads.bind (lineIndex + first.length) reads_computedTarget
  · intro _ _
    apply Reads.bind (lineIndex + skipped + second.length)
    · exact reads_computedTarget.widen (by omega) (Int.le_refl _)
    · intro _ _
      apply Reads.after (by omega) (.locate (by omega))
      intro firstLocation _
      split
      · have located : Reads source context mayFail (fun _ => True) (lineIndex + skipped + second.length)
            (lineIndex + skipped + second.length)
            (some <$> locate (lineIndex + skipped) (lineIndex + skipped + second.length)) :=
          .map (Int.le_refl _) (.locate (by omega)) fun _ _ => trivial
        apply Reads.branch (by omega) (fun _ => .pure trivial) (fun _ => located)
        exact fun _ _ => .emit rfl
      · exact .emit rfl
    · omega
    · omega
  · omega
  · omega

theorem reads_flow {command : String} {commandIndex : Int} :
    Reads source context mayFail (fun _ => True) lineIndex (lineIndex + line.length)
      (flow command commandIndex line lineIndex) := by
  unfold flow
  split
  · apply Reads.after (by omega) (.locate (by omega))
    exact fun _ _ => .emit rfl
  · exact reads_jump

theorem reads_sceneList (start : Nat) (le : lo ≤ hi) :
    Reads source context True (fun _ => True) lo hi (sceneList start) := by
  apply Reads.readDocument fun _ => rfl
  dsimp only
  split
  · exact .pure trivial
  · rename_i name stop last
    have forward := Text.le_of_mem_sceneNames (List.mem_of_getLast? last)
    apply Reads.after le (.locate (by omega))
    exact fun _ _ => .emit rfl

theorem reads_achievement {role : SymbolRole} (other : role ≠ .reference) (le : lo ≤ hi) :
    Reads source context True (fun _ => True) lo hi (achievement role line lineIndex) := by
  unfold achievement
  split
  · exact .pure trivial
  · exact .emitOther other le

/-- Every command but `*stat_chart` mentions variables on its own line only. -/
theorem reads_arguments {command : String} {commandIndex : Int} (noChart : command ≠ "stat_chart") :
    Reads source context True (fun _ => True) lineIndex (lineIndex + line.length)
      (arguments command line commandIndex lineIndex) := by
  unfold arguments
  split
  · exact reads_symbolCommand
  split
  · exact reads_condition
  split
  · exact reads_flow
  split
  · apply Reads.readDocument fun _ => rfl
    split
    · exact reads_sceneList _ (by omega)
    · exact .pure trivial
  · exact absurd rfl noChart
  · exact reads_achievement (by simp) (by omega)
  · exact reads_achievement (by simp) (by omega)
  · exact .pure trivial

section Chart

/-- All that is mentioned stands at or after an offset, in the command of the context. -/
abbrev Gathers (source : Source) (context : Context) (lo : Int) (parser : Parser Unit) : Prop :=
  Adds source context True (fun _ => True) (Gathered source.document context.command lo) parser

theorem Gathers.complain {notice : Notice} {start stop : Int} {fields : Fields} :
    Gathers source context lo (complain notice start stop fields) :=
  Adds.complain (.of_silent rfl) (fun _ _ => .of_silent rfl) (.inl trivial)

theorem Gathers.bind {first : Parser Unit} {next : Unit → Parser Unit}
    (before : Gathers source context lo first) (after : Gathers source context lo (next ())) :
    Gathers source context lo (first >>= next) :=
  Adds.bind before (fun _ _ => after) (fun _ held => held) fun _ _ => .append

theorem Gathers.of_reads {parser : Parser Unit} {first : Int}
    (reads : Reads source context True (fun _ => True) first hi parser) (le : lo ≤ first) :
    Gathers source context lo parser :=
  reads.mono (fun _ given => given) fun _ orderly => .of_orderly orderly le

theorem gathers_statVariable {index : Nat} (after : lo ≤ index) :
    Gathers source context lo (statVariable index) := by
  apply Adds.readDocument fun _ => rfl
  split
  · exact Gathers.complain
  · rename_i name _
    split
    · exact Gathers.complain
    · exact Gathers.complain
    · exact Gathers.of_reads (lays_expression name.inside (index + 1)).reads.discard (by omega)
    · apply Gathers.of_reads _ after
      · exact index + 1
      · exact .emitReference (Int.le_refl _) (by omega)

theorem gathers_statLine {start : Nat} {line : StatLine} (after : lo ≤ start) :
    Gathers source context lo (statLine start line) := by
  unfold statLine
  dsimp only
  split
  · split
    · exact Gathers.complain
    · exact gathers_statVariable (by omega)
  · exact Gathers.complain

/-- A stat chart mentions variables on the lines below it. -/
theorem gathers_statChart {commandIndex : Int} {start : Nat} (after : lo ≤ start) :
    Gathers source context lo (statChart commandIndex start) := by
  have empty : ∀ lines : List (Nat × StatLine), Gathers source context lo (if lines = [] then
      complain .statChartEmpty (commandIndex - 1) (commandIndex + "stat_chart".length) []
      else pure ()) := by
    intro lines
    split
    · exact Gathers.complain
    · exact Adds.pure trivial (.of_silent rfl)
  apply Adds.readDocument fun _ => rfl
  apply Gathers.bind
  · apply Adds.forM (.of_silent rfl) fun _ _ => .append
    intro line member
    have := StatChart.le_of_mem_lines member
    exact gathers_statLine (by omega)
  · dsimp only
    split
    · exact Gathers.bind Gathers.complain (empty _)
    · exact empty _

/-- What `*stat_chart` mentions stands after its name. -/
theorem gathers_arguments {commandIndex : Nat} :
    Gathers source context commandIndex (arguments "stat_chart" line commandIndex lineIndex) := by
  apply Adds.readDocument fun _ => rfl
  split
  · rename_i start found
    have := Text.le_of_lineEnd? found
    exact gathers_statChart (by omega)
  · exact Adds.pure trivial (.of_silent rfl)

end Chart

end Parser

end ChoiceScript
