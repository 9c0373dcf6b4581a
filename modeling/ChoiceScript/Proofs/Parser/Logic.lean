import ChoiceScript.Parser.Basic
import ChoiceScript.Proofs.Diagnostic.Rendering

/-! # A logic of parsers

`Meets source holds gives parser` says three things of a parser wherever it starts: it only adds to
the reports, every report that it adds holds, and it gives a value as wanted. The one way to fail is
that the address of the document cannot be read. Rules follow the ways to put parsers together, so
that a parser meets what its parts meet.
-/

namespace ChoiceScript.Parser

variable {α β : Type}

/-- The value of an outcome is as wanted; the only fault is that of the document's address. -/
def Ends (source : Source) (gives : α → Prop) : Except Fault α → Prop
  | .ok value => gives value
  | .error fault => Uri.isStartup source.startupFile source.document.uri = .error fault

/-- What a parser reports and gives wherever it starts. -/
def Meets (source : Source) (holds : Report → Prop) (gives : α → Prop) (parser : Parser α) : Prop :=
  ∀ progress, ∃ new, (parser source progress).2.reports = progress.reports ++ new ∧
    (∀ report ∈ new, holds report) ∧ Ends source gives (parser source progress).1

section Rules

variable {source : Source} {holds : Report → Prop} {gives : α → Prop} {wants : β → Prop}

theorem Meets.pure {value : α} (given : gives value) : Meets source holds gives (pure value) :=
  fun progress => ⟨[], by simp [Pure.pure], by simp, given⟩

theorem Meets.bind {first : Parser α} {next : α → Parser β} (before : Meets source holds gives first)
    (after : ∀ value, gives value → Meets source holds wants (next value)) :
    Meets source holds wants (first >>= next) := by
  intro progress
  obtain ⟨new, reported, held, ends⟩ := before progress
  simp only [Bind.bind]
  cases ran : first source progress with
  | mk outcome middle =>
      simp only [ran] at reported ends ⊢
      cases outcome with
      | error fault => exact ⟨new, reported, held, ends⟩
      | ok value =>
          obtain ⟨more, added, alsoHeld, ends⟩ := after value ends middle
          refine ⟨new ++ more, by rw [added, reported, List.append_assoc], ?_, ends⟩
          intro report member
          exact (List.mem_append.1 member).elim (held report) (alsoHeld report)

/-- What follows two branches is read after either. -/
theorem Meets.branch {condition : Prop} [Decidable condition] {first second : Parser α}
    {next : α → Parser β} (yes : condition → Meets source holds gives first)
    (no : ¬ condition → Meets source holds gives second)
    (after : ∀ value, gives value → Meets source holds wants (next value)) :
    Meets source holds wants (if condition then first >>= next else second >>= next) := by
  split
  · rename_i passed
    exact (yes passed).bind after
  · rename_i failed
    exact (no failed).bind after

theorem Meets.map {change : α → β} {parser : Parser α} (met : Meets source holds gives parser)
    (given : ∀ value, gives value → wants (change value)) :
    Meets source holds wants (change <$> parser) :=
  met.bind fun value held => .pure (given value held)

theorem Meets.mono {holds' : Report → Prop} {gives' : α → Prop} {parser : Parser α}
    (met : Meets source holds gives parser) (reports : ∀ report, holds report → holds' report)
    (values : ∀ value, gives value → gives' value) : Meets source holds' gives' parser := by
  intro progress
  obtain ⟨new, reported, held, ends⟩ := met progress
  refine ⟨new, reported, fun report member => reports report (held report member), ?_⟩
  cases outcome : (parser source progress).1 with
  | ok value =>
      rw [outcome] at ends
      exact values value ends
  | error fault =>
      rw [outcome] at ends
      exact ends

theorem Meets.lift {outcome : Except Fault α} {value : α} (passed : outcome = .ok value) :
    Meets source holds (· = value) (lift outcome) := by
  subst passed
  exact fun progress => ⟨[], by simp [Parser.lift], by simp, rfl⟩

theorem Meets.document : Meets source holds (· = source.document) document :=
  fun progress => ⟨[], by simp [Parser.document], by simp, rfl⟩

theorem Meets.isInside (element : Element) :
    Meets source holds (fun _ => True) (isInside element) :=
  fun progress => ⟨[], by simp [Parser.isInside], by simp, trivial⟩

theorem Meets.isStartup : Meets source holds (fun _ => True) isStartup := by
  refine fun progress => ⟨[], by simp [Parser.isStartup], by simp, ?_⟩
  simp only [Parser.isStartup]
  cases told : Uri.isStartup source.startupFile source.document.uri with
  | ok value => trivial
  | error fault => exact told

theorem Meets.report {reported : Report} (held : holds reported) :
    Meets source holds (fun _ => True) (report reported) :=
  fun progress => ⟨[reported], rfl, by simpa using held, trivial⟩

theorem Meets.emit {event : Event} (held : ∀ context, holds (.event event context)) :
    Meets source holds (fun _ => True) (emit event) :=
  fun progress => Meets.report (held _) progress

theorem Meets.locate {start stop : Int} (le : start ≤ stop) :
    Meets source holds (fun location => source.document.locationAt start stop = .ok location)
      (locate start stop) := by
  refine fun progress => ⟨[], by simp [Parser.locate], by simp, ?_⟩
  simp only [Parser.locate, Document.locationAt_eq le]
  rfl

theorem Meets.complain {notice : Notice} {start stop : Int} {fields : Fields} (le : start ≤ stop)
    (fit : notice.message.fits (fields.map (·.1)) = true)
    (held : ∀ diagnostic, source.document.Covers diagnostic.range → holds (.error diagnostic)) :
    Meets source holds (fun _ => True) (complain notice start stop fields) := by
  intro progress
  obtain ⟨diagnostic, made, covered⟩ : ∃ diagnostic,
      notice.between source.document start stop fields = .ok diagnostic ∧
        source.document.Covers diagnostic.range := Notice.between_ok le fit
  simp only [Parser.complain, made]
  exact Meets.report (held diagnostic covered) progress

theorem Meets.within {element : Element} {body : Parser α} (met : Meets source holds gives body) :
    Meets source holds gives (within element body) :=
  fun progress => met { progress with stack := element :: progress.stack }

theorem Meets.duringCommand {name : String} {body : Parser α}
    (met : Meets source holds gives body) : Meets source holds gives (duringCommand name body) :=
  fun progress => met.within { progress with command := some name }

theorem Meets.discard {first : Parser α} (met : Meets source holds gives first) :
    Meets source holds (fun _ => True) (discard first) :=
  met.bind fun _ _ => .pure trivial

theorem Meets.forM {list : List β} {step : β → Parser Unit}
    (each : ∀ member ∈ list, Meets source holds (fun _ => True) (step member)) :
    Meets source holds (fun _ => True) (list.forM step) := by
  induction list with
  | nil => exact .pure trivial
  | cons first rest ih =>
      exact (each first (by simp)).bind fun _ _ => ih fun member later => each member (by simp [later])

end Rules

end ChoiceScript.Parser
