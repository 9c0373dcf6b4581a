import ChoiceScript.Proofs.Document.Order
import ChoiceScript.Proofs.Expression.Slices
import ChoiceScript.Proofs.Mention.Inline
import ChoiceScript.Proofs.Parser.Command
import Mathlib.Data.List.Count
import Mathlib.Data.List.Nodup

/-! # Lexing errors of a line that sets a variable

The line is cut behind its first token, and each of the two slices reports the lexing errors that it
has. Nothing else that is reported is one of them. Complaints about a line are of other kinds, and what is
read in a token lies in the token; where the token is at fault it is a string, and that begins with its
quote.
-/

namespace ChoiceScript

theorem LexProblem.category_notice (problem : LexProblem) : problem.notice.category = "lexer" := by
  cases problem <;> rfl

namespace Expression.Aligned

variable {expression : Expression} {document : Document} {early late : List Diagnostic}
  (aligned : expression.Aligned)

include aligned

theorem diagnostics_of_nil (none : expression.tokens = []) : expression.diagnostics document = .ok [] := by
  rw [diagnostics, aligned.errors, none]
  rfl

theorem diagnostics_append (bound : Nat)
    (first : (expression.slice 0 (some bound)).diagnostics document = .ok early)
    (second : (expression.slice bound none).diagnostics document = .ok late) :
    expression.diagnostics document = .ok (early ++ late) := by
  simp only [diagnostics, slice_globalIndex] at first second
  rw [diagnostics, ← aligned.errors_append bound, List.mapM_append, first, second]
  rfl

end Expression.Aligned

/-- A diagnostic is made of a lexing error of a text that stands in the document. -/
structure LexDiagnostic (document : Document) (text : Text) (index : Int) (diagnostic : Diagnostic) :
    Prop where
  first : 0 ≤ index
  last : index + text.length ≤ document.text.length
  made : ∃ error ∈ (Expression.ofText text index).errors,
    error.problem.notice.between document (index + error.start) (index + error.stop) [] = .ok diagnostic

namespace LexDiagnostic

variable {document : Document} {text : Text} {index : Int} {diagnostic : Diagnostic}
  (lexing : LexDiagnostic document text index diagnostic)

include lexing

theorem category : diagnostic.category = some "lexer" := by
  obtain ⟨error, -, made⟩ := lexing.made
  rw [Notice.category_of_between made, error.problem.category_notice]

/-- The diagnostic spans the token that is at fault. -/
theorem exists_token : ∃ token ∈ (Expression.ofText text index).tokens, token.problem? ≠ none ∧
    document.offsetAt diagnostic.range.start = index + token.start ∧
    document.offsetAt diagnostic.range.stop = index + token.stop := by
  obtain ⟨error, member, made⟩ := lexing.made
  rw [(Expression.ofText_aligned text index).errors] at member
  obtain ⟨token, present, faulty⟩ := List.mem_filterMap.1 member
  obtain ⟨start, stop⟩ := Token.span_of_error? faulty
  have ends := (Expression.standsIn_of_mem_tokens present).stop_le
  have forward := token.start_le_stop
  have first := lexing.first
  have last := lexing.last
  rw [start, stop] at made
  refine ⟨token, present, fun fine => ?_, Notice.offsets_of_between made ?_ ?_ ?_⟩
  · simp [Token.error?, fine] at faulty
  all_goals omega

/-- Of all tokens, only the one at fault reaches from the start of the diagnostic to its end. -/
theorem of_frames {token : Token} (member : token ∈ (Expression.ofText text index).tokens)
    (frames : document.Frames (index + token.start) (index + token.stop) diagnostic.range) :
    token.problem? ≠ none ∧ document.offsetAt diagnostic.range.start = index + token.start := by
  have aligned := Expression.ofText_aligned text index
  have ends := (Expression.standsIn_of_mem_tokens member).stop_le
  obtain ⟨culprit, present, faulty, start, stop⟩ := lexing.exists_token
  have first := lexing.first
  have last := lexing.last
  have inside := frames.offsets (by omega) (by omega)
  have long := Token.start_lt_stop (aligned.nonempty culprit present)
  have same : culprit = token := eq_of_pairwise aligned.ordered present member (by omega) (by omega)
  exact same ▸ ⟨faulty, start⟩

end LexDiagnostic

/-- Reports recount some errors in their order, and besides them no error that counts. -/
structure Recounts (counted told : List Diagnostic) (reports : List Report) : Prop where
  all : (told.map Report.error).Sublist reports
  once : ∀ diagnostic ∈ counted, reports.count (.error diagnostic) = told.count diagnostic

namespace Recounts

variable {counted told more : List Diagnostic} {new added : List Report}

theorem append (before : Recounts counted told new) (after : Recounts counted more added) :
    Recounts counted (told ++ more) (new ++ added) where
  all := by
    rw [List.map_append]
    exact before.all.append after.all
  once diagnostic member := by
    rw [List.count_append, List.count_append, before.once diagnostic member,
      after.once diagnostic member]

theorem exact (counted told : List Diagnostic) : Recounts counted told (told.map .error) where
  all := List.Sublist.refl _
  once _ _ := List.count_map_of_injective _ _ (fun _ _ same => Report.error.inj same) _

theorem of_others (others : ∀ diagnostic ∈ counted, .error diagnostic ∉ new) :
    Recounts counted [] new where
  all := List.nil_sublist _
  once diagnostic member := by
    rw [List.count_eq_zero.2 (others diagnostic member), List.count_nil]

end Recounts

namespace Parser

variable {α : Type} {source : Source} {context : Context} {gives : α → Prop}
  {first last lo hi index start stop : Int} {counted told more : List Diagnostic}

/-- What lies where no error that counts can lie is none of them. -/
theorem recounts_of_lays {parser : Parser α}
    (lays : Lays source context False gives first last lo hi parser)
    (apart : ∀ diagnostic ∈ counted, ¬ source.document.Frames first last diagnostic.range) :
    Adds source context False gives (Recounts counted []) parser :=
  lays.mono (fun _ given => given) fun _ laid => .of_others fun diagnostic member reported =>
    apart diagnostic member (laid.framed _ reported diagnostic.range (by simp [Report.ranges]))

/-- What is read in a token at fault lies behind the first character of the token. -/
theorem lays_tokenWith_faulty {mayFail : Prop} {token : Token} {descend : Descent token.text.length}
    (lays : descend.Lays source mayFail) (stands : token.StandsIn text 0)
    (faulty : token.problem? ≠ none) :
    Lays source context mayFail (fun _ => True) (index + token.start + 1) (index + token.stop)
      (index + token.start) (index + token.stop) (tokenWith index token descend) := by
  have nonempty : 1 ≤ token.text.length := List.length_pos_iff.2 stands.nonempty
  have behind : index + token.start + token.text.length ≤ index + token.stop := by
    simp only [Token.stop]
    omega
  cases kind : token.kind with
  | string =>
      have ends := (Opening.inString_stop nonempty).2.1
      simp only [tokenWith, kind]
      refine (lays_stringWith lays nonempty ?_ behind).discard.widen (Int.le_refl _) (Int.le_refl _) ?_ ?_
      all_goals omega
  | unknown =>
      simp only [tokenWith, kind]
      exact .pure trivial
  | _ => simp [Token.problem?, kind] at faulty

theorem recounts_complain {notice : Notice} (other : notice.category ≠ "lexer")
    (fit : notice.message.fits [] = true) (le : start ≤ stop)
    (lexer : ∀ diagnostic ∈ counted, diagnostic.category = some "lexer") :
    Adds source context False (fun _ => True) (Recounts counted []) (complain notice start stop []) := by
  refine Adds.told le fit fun diagnostic made => .of_others fun counts member reported => ?_
  obtain rfl := Report.error.inj (List.mem_singleton.1 reported)
  have same := (Notice.category_of_between made).symm.trans (lexer counts member)
  exact other (Option.some.inj same)

theorem adds_reports (list : List Diagnostic) : Adds source context False (fun _ => True)
    (· = list.map Report.error) (list.forM fun diagnostic => report (.error diagnostic)) := by
  induction list with
  | nil => exact .pure trivial rfl
  | cons diagnostic rest ih =>
      have one : Adds source context False (fun _ => True) (· = [Report.error diagnostic])
          (report (.error diagnostic)) := .report rfl
      refine one.andThen ih fun new added first later => ?_
      rw [first, later]
      rfl

/-- All lexing errors of an expression are reported, and nothing else. -/
theorem recounts_lexErrors {part : Expression} (made : part.diagnostics source.document = .ok told) :
    Adds source context False (fun _ => True) (Recounts counted told) (lexErrors part) := by
  apply Adds.readDocument fun _ => rfl
  rw [made]
  apply (adds_reports told).mono fun _ given => given
  rintro _ rfl
  exact .exact counted told

section Line

variable (lexing : ∀ diagnostic ∈ counted, LexDiagnostic source.document text index diagnostic)

include lexing

/-- What is read in a token is none of the lexing errors of the line. -/
theorem recounts_tokenWith {token : Token} (member : token ∈ (Expression.ofText text index).tokens)
    {descend : Descent token.text.length} (lays : descend.Lays source False) :
    Adds source context False (fun _ => True) (Recounts counted []) (tokenWith index token descend) := by
  have stands := Expression.standsIn_of_mem_tokens member
  by_cases fine : token.problem? = none
  · apply recounts_of_lays (lays_tokenWith lays stands)
    intro diagnostic counts frames
    exact ((lexing diagnostic counts).of_frames member frames).1 fine
  · apply recounts_of_lays (lays_tokenWith_faulty lays stands fine)
    intro diagnostic counts frames
    obtain ⟨first, last, -⟩ := lexing diagnostic counts
    have ends := stands.stop_le
    have inside := frames.offsets (by omega) (by omega)
    have start := ((lexing diagnostic counts).of_frames member
      (frames.widen (by omega) (Int.le_refl _))).2
    omega

theorem recounts_tokensWith {tokens : List Token} {descend : ∀ token ∈ tokens, Descent token.text.length}
    (part : ∀ token ∈ tokens, token ∈ (Expression.ofText text index).tokens)
    (lays : ∀ token member, (descend token member).Lays source False) :
    Adds source context False (fun _ => True) (Recounts counted []) (tokensWith index tokens descend) := by
  induction tokens with
  | nil => exact .pure trivial (.of_others (by simp))
  | cons token tokens ih =>
      refine Adds.andThen (recounts_tokenWith lexing (part token (by simp)) (lays token _))
        (ih (fun other member => ?_) fun _ _ => lays _ _) fun _ _ => Recounts.append
      exact part other (List.mem_cons_of_mem _ member)

/-- A slice reports the lexing errors that it has, and besides them none of its line. -/
theorem recounts_slice (start : Nat) (stop : Option Nat)
    (made : ((Expression.ofText text index).slice start stop).diagnostics source.document = .ok told) :
    Adds source context False (fun _ => True) (Recounts counted told)
      (lexedExpression ((Expression.ofText text index).slice start stop)) := by
  unfold lexedExpression
  refine Adds.andThen (recounts_tokensWith lexing (fun _ => Expression.mem_of_mem_slice) fun token _ => ?_)
    (recounts_lexErrors made) fun _ _ => Recounts.append
  exact lays_descent token.text.length

theorem recounts_target (first : Token)
    (made : ((Expression.ofText text index).slice 0 (some 1)).diagnostics source.document = .ok told) :
    Adds source context False (fun _ => True) (Recounts counted told)
      (target (Expression.ofText text index) first) := by
  unfold target
  dsimp only
  split
  · exact recounts_slice lexing 0 (some 1) made
  · refine Adds.andThen (recounts_complain (by decide) rfl (by omega) fun diagnostic counts => ?_)
      (recounts_lexErrors made) fun _ _ => Recounts.append
    exact (lexing diagnostic counts).category

theorem recounts_checkValue {part : Expression} (ordered : part.Ordered) :
    Adds source context False (fun _ => True) (Recounts counted []) (checkValue part) := by
  apply Adds.forM (.of_others (by simp)) (fun _ _ => Recounts.append)
  intro error member
  have le := Shape.fine_valueErrors (Token.combine_inOrder ordered.tokens) error member
  have other : ∀ notice ∈ Shape.notices, notice.category ≠ "lexer" := by decide
  exact recounts_complain (other _ (Shape.known_valueErrors _ error member)) rfl (by omega)
    fun diagnostic counts => (lexing diagnostic counts).category

/-- A line reports the lexing errors of its two slices, and those are all that it has. -/
theorem recounts_set (made : (Expression.ofText text index).diagnostics source.document = .ok told) :
    Adds source context False (fun _ => True) (Recounts counted told) (set text index) := by
  have aligned := Expression.ofText_aligned text index
  have ordered := Expression.ofText_ordered text index
  have lexer diagnostic counts := (lexing diagnostic counts).category
  obtain ⟨early, first, -⟩ := diagnostics_ok (ordered.slice 0 (some 1)) source.document
  obtain ⟨late, second, -⟩ := diagnostics_ok (ordered.slice 1 none) source.document
  obtain rfl : told = early ++ late :=
    Except.ok.inj (made.symm.trans (aligned.diagnostics_append 1 first second))
  unfold set
  dsimp only
  split
  · rename_i none
    have nothing := Except.ok.inj (made.symm.trans (aligned.diagnostics_of_nil none))
    rw [nothing]
    exact recounts_complain (by decide) rfl (by omega) lexer
  · rename_i token rest some
    refine Adds.andThen (recounts_target lexing token first) ?_ fun _ _ => Recounts.append
    split
    · rename_i none
      have nothing := Except.ok.inj
        (second.symm.trans ((aligned.slice 1 Option.none).diagnostics_of_nil none))
      rw [nothing]
      exact recounts_complain (by decide) rfl (by omega) lexer
    · rw [← List.append_nil late]
      exact Adds.andThen (recounts_slice lexing 1 Option.none second)
        (recounts_checkValue lexing (ordered.slice 1 Option.none)) fun _ _ => Recounts.append

end Line

/-- In the text no two lexing errors make the same diagnostic. -/
theorem diagnostics_nodup (made : (Expression.ofText text index).diagnostics source.document = .ok told)
    (first : 0 ≤ index) (last : index + text.length ≤ source.document.text.length) : told.Nodup := by
  have rise := (Expression.ofText_aligned text index).errors_rise
  apply Outcome.pairwise_mapM made
  apply rise.imp_of_mem
  intro a b early late apart x y madeX madeY same
  have ordered := (Expression.ofText_ordered text index).errors
  have forwardA := ordered a early
  have forwardB := ordered b late
  have endA := Expression.error_stop_le early
  have endB := Expression.error_stop_le late
  have place : (Expression.ofText text index).globalIndex = index := rfl
  have startX := (Notice.offsets_of_between madeX (by omega) (by omega) (by omega)).1
  have startY := (Notice.offsets_of_between madeY (by omega) (by omega) (by omega)).1
  rw [same] at startX
  omega

/-- Slices share out the lexing errors of an expression. Each has those of its tokens, two that meet have
all of them, and a slice of a slice is a slice of the whole. So a line that sets a variable, which is
read in two slices, reports all of its lexing errors in their order, and in the document each of them
just once. -/
theorem slices_share_errors (text : Text) (index : Int) (source : Source) (progress : Progress) :
    (∀ bound : Int, ((Expression.ofText text index).cut 0 (some bound)).errors ++
      ((Expression.ofText text index).cut bound none).errors = (Expression.ofText text index).errors) ∧
    (∀ start stop, ((Expression.ofText text index).cut start stop).errors =
      ((Expression.ofText text index).cut start stop).tokens.filterMap Token.error?) ∧
    (∀ (start further : Nat) (stop shorter : Option Nat),
      ((Expression.ofText text index).slice start stop).slice further shorter =
        (Expression.ofText text index).slice (start + further)
          (stop.merge min (shorter.map (start + ·)))) ∧
    ∃ new diagnostics, set text index source progress =
        (.ok (), { progress with reports := progress.reports ++ new }) ∧
      (Expression.ofText text index).diagnostics source.document = .ok diagnostics ∧
      (diagnostics.map Report.error).Sublist new ∧
      (0 ≤ index → index + text.length ≤ source.document.text.length →
        ∀ diagnostic ∈ diagnostics, new.count (.error diagnostic) = 1) := by
  have aligned := Expression.ofText_aligned text index
  obtain ⟨diagnostics, made, -⟩ :=
    diagnostics_ok (Expression.ofText_ordered text index) source.document
  refine ⟨fun bound => aligned.errors_append _, fun start stop => aligned.errors_slice _ _,
    aligned.slice_slice, ?_⟩
  -- outside the document ranges are cut off, and nothing can be counted by them
  have counts : ∃ counted,
      (∀ diagnostic ∈ counted, LexDiagnostic source.document text index diagnostic) ∧
      (0 ≤ index → index + text.length ≤ source.document.text.length → counted = diagnostics) := by
    by_cases placed : 0 ≤ index ∧ index + text.length ≤ source.document.text.length
    · refine ⟨diagnostics, fun diagnostic member => ?_, fun _ _ => rfl⟩
      exact ⟨placed.1, placed.2, (Outcome.mem_mapM made).1 member⟩
    · exact ⟨[], by simp, fun first last => absurd ⟨first, last⟩ placed⟩
  obtain ⟨counted, lexing, whole⟩ := counts
  have adds : Adds source ⟨progress.command, progress.stack⟩ False (fun _ => True)
      (Recounts counted diagnostics) (set text index) := recounts_set lexing made
  obtain ⟨outcome, new, settles, recounts, ran⟩ := adds
  cases outcome with
  | error fault => exact settles.elim
  | ok value =>
      refine ⟨new, diagnostics, ran source.document.version progress.reports, made, recounts.all, ?_⟩
      intro first last diagnostic member
      rw [recounts.once diagnostic (whole first last ▸ member)]
      exact List.count_eq_one_of_mem (diagnostics_nodup made first last) member

/-- No variable, and a string without its closing quote with another error in it. -/
def faultyLine : Text := "#! \"$\x7b#\x7d x".toList

def faultySource : Source := ⟨⟨"file:///game/a.txt", "*set ".toList ++ faultyLine, 0⟩, "startup.txt"⟩

theorem faultyLine_reports_errors : 5 + faultyLine.length ≤ faultySource.document.text.length ∧
    ∃ new diagnostics, set faultyLine 5 faultySource {} = (.ok (), ⟨none, [], new⟩) ∧
      (Expression.ofText faultyLine 5).diagnostics faultySource.document = .ok diagnostics ∧
      diagnostics.length = 2 ∧ ∀ diagnostic ∈ diagnostics, new.count (.error diagnostic) = 1 := by
  have inside : 5 + faultyLine.length ≤ faultySource.document.text.length := by decide
  have two : ((Expression.ofText faultyLine 5).diagnostics faultySource.document).map List.length =
      .ok 2 := by decide +kernel
  obtain ⟨-, -, -, new, diagnostics, ran, made, -, once⟩ :=
    slices_share_errors faultyLine 5 faultySource {}
  rw [made] at two
  exact ⟨inside, new, diagnostics, ran, made, Except.ok.inj two,
    once (by decide) (by exact_mod_cast inside)⟩

end Parser

end ChoiceScript
