import ChoiceScript.Parser.Basic
import ChoiceScript.Proofs.Diagnostic.Rendering

/-! # What parsers add

`Adds source context mayFail gives holds parser` says all that a parser does in a context: it leaves
the command and the constructs around it as they are, and adds reports of which `holds` is true to
those that are there. It gives a value as wanted, or fails if it may. Neither the version of the
document nor what was reported before makes a difference. Rules follow the ways to put parsers
together.
-/

namespace ChoiceScript

/-- The same document in another version. -/
def Source.atVersion (source : Source) (version : Nat) : Source :=
  { source with document := { source.document with version } }

namespace Parser

variable {α β : Type}

/-- A value is as wanted, and there is a fault only if there may be one. -/
def Settles (mayFail : Prop) (gives : α → Prop) : Except Fault α → Prop
  | .ok value => gives value
  | .error _ => mayFail

/-- What a parser does in a context, whatever the version of the document and the reports before. -/
def Adds (source : Source) (context : Context) (mayFail : Prop) (gives : α → Prop)
    (holds : List Report → Prop) (parser : Parser α) : Prop :=
  ∃ outcome new, Settles mayFail gives outcome ∧ holds new ∧ ∀ version reports,
    parser (source.atVersion version) ⟨context.command, context.stack, reports⟩ =
      (outcome, ⟨context.command, context.stack, reports ++ new⟩)

section Rules

variable {source : Source} {context : Context} {mayFail : Prop} {gives : α → Prop} {wants : β → Prop}
  {holds holds' before after : List Report → Prop}

/-- From where it is a parser comes back to where it is. -/
theorem Adds.comesBack {parser : Parser α} {progress : Progress}
    (adds : Adds source ⟨progress.command, progress.stack⟩ mayFail gives holds parser) :
    (parser source progress).2.command = progress.command ∧
      (parser source progress).2.stack = progress.stack := by
  obtain ⟨outcome, new, -, -, ran⟩ := adds
  have here := ran source.document.version progress.reports
  exact ⟨congrArg (·.2.command) here, congrArg (·.2.stack) here⟩

/-- What a parser adds from the start is all that it reports. -/
theorem Adds.holds_run {parser : Parser α} (adds : Adds source ⟨none, []⟩ mayFail gives holds parser) :
    holds (parser.run source).2.reports := by
  obtain ⟨outcome, new, -, held, ran⟩ := adds
  have whole : parser source {} = (outcome, ⟨none, [], [] ++ new⟩) := ran source.document.version []
  rwa [run, whole]

/-- What cannot fail gives a value as wanted, wherever it starts. -/
theorem Adds.passes {holds : Context → List Report → Prop} {parser : Parser α}
    (adds : ∀ context, Adds source context False gives (holds context) parser) (progress : Progress) :
    ∃ value, (parser source progress).1 = .ok value ∧ gives value := by
  obtain ⟨outcome, new, settles, -, ran⟩ := adds ⟨progress.command, progress.stack⟩
  have here : parser source progress = (outcome, ⟨_, _, _⟩) :=
    ran source.document.version progress.reports
  cases outcome with
  | ok value => exact ⟨value, by rw [here], settles⟩
  | error fault => exact settles.elim

/-- What a parser adds is what it reports where nothing was reported before. -/
theorem Adds.alone {parser : Parser α} (adds : Adds source context mayFail gives holds parser) :
    Adds source context mayFail gives
      (fun new => holds new ∧ (parser source ⟨context.command, context.stack, []⟩).2.reports = new) parser := by
  obtain ⟨outcome, new, settles, held, ran⟩ := adds
  have here : parser source ⟨context.command, context.stack, []⟩ = _ := ran source.document.version []
  exact ⟨outcome, new, settles, ⟨held, by rw [here, List.nil_append]⟩, ran⟩

theorem Adds.mono {parser : Parser α} (adds : Adds source context mayFail gives holds parser)
    {gives' : α → Prop} (values : ∀ value, gives value → gives' value)
    (reports : ∀ new, holds new → holds' new) : Adds source context mayFail gives' holds' parser := by
  obtain ⟨outcome, new, settles, held, ran⟩ := adds
  refine ⟨outcome, new, ?_, reports new held, ran⟩
  cases outcome with
  | ok value => exact values value settles
  | error fault => exact settles

theorem Adds.pure {value : α} (given : gives value) (none : holds []) :
    Adds source context mayFail gives holds (pure value) :=
  ⟨.ok value, [], given, none, fun _ reports => by simp [Pure.pure]⟩

/-- What two parsers add is put together; a parser that fails is the last. -/
theorem Adds.bind {first : Parser α} {next : α → Parser β}
    (adds : Adds source context mayFail gives before first)
    (more : ∀ value, gives value → Adds source context mayFail wants after (next value))
    (alone : ∀ new, before new → holds new)
    (joined : ∀ new added, before new → after added → holds (new ++ added)) :
    Adds source context mayFail wants holds (first >>= next) := by
  obtain ⟨outcome, new, settles, held, ran⟩ := adds
  cases outcome with
  | error fault =>
      refine ⟨.error fault, new, settles, alone new held, fun version reports => ?_⟩
      simp only [Bind.bind, ran]
  | ok value =>
      obtain ⟨result, added, ends, alsoHeld, ranNext⟩ := more value settles
      refine ⟨result, new ++ added, ends, joined new added held alsoHeld, fun version reports => ?_⟩
      simp only [Bind.bind, ran, ranNext, List.append_assoc]

/-- Parsers that cannot fail add one after the other. -/
theorem Adds.andThen {first : Parser α} {next : Parser β}
    (adds : Adds source context False gives before first)
    (more : Adds source context False wants after next)
    (joined : ∀ new added, before new → after added → holds (new ++ added)) :
    Adds source context False wants holds (first >>= fun _ => next) := by
  obtain ⟨outcome, new, settles, held, ran⟩ := adds
  cases outcome with
  | error fault => exact settles.elim
  | ok value =>
      obtain ⟨result, added, ends, alsoHeld, ranNext⟩ := more
      refine ⟨result, new ++ added, ends, joined new added held alsoHeld, fun version reports => ?_⟩
      simp only [Bind.bind, ran, ranNext, List.append_assoc]

theorem Adds.lift {outcome : Except Fault α} (settles : Settles mayFail gives outcome)
    (none : holds []) : Adds source context mayFail gives holds (lift outcome) :=
  ⟨outcome, [], settles, none, fun _ reports => by simp [Parser.lift]⟩

/-- Where there is no value, what would follow is not read. -/
theorem Adds.afterLift {outcome : Except Fault α} {next : α → Parser β} (failed : mayFail) (none : holds [])
    (more : ∀ value, outcome = .ok value → Adds source context mayFail wants holds (next value)) :
    Adds source context mayFail wants holds (Parser.lift outcome >>= next) := by
  cases outcome with
  | ok value => exact more value rfl
  | error fault =>
      refine ⟨.error fault, [], failed, none, fun version reports => ?_⟩
      simp only [Bind.bind, Parser.lift, List.append_nil]

/-- The text and the address of a document do not change with its version. -/
theorem Adds.readDocument {next : Document → Parser α}
    (same : ∀ version, next (source.atVersion version).document = next source.document)
    (adds : Adds source context mayFail gives holds (next source.document)) :
    Adds source context mayFail gives holds (document >>= next) := by
  obtain ⟨outcome, new, settles, held, ran⟩ := adds
  refine ⟨outcome, new, settles, held, fun version reports => ?_⟩
  simp only [Bind.bind, document, same, ran]

theorem Adds.isStartup (none : holds []) :
    Adds source context True (fun _ => True) holds isStartup := by
  refine ⟨Uri.isStartup source.startupFile source.document.uri, [], ?_, none, fun _ reports => ?_⟩
  · cases Uri.isStartup source.startupFile source.document.uri <;> trivial
  · simp [Parser.isStartup, Source.atVersion]

theorem Adds.isInside (element : Element) (none : holds []) :
    Adds source context mayFail (· = context.stack.contains element) holds (isInside element) :=
  ⟨.ok (context.stack.contains element), [], rfl, none,
    fun _ reports => by simp [Parser.isInside]⟩

theorem Adds.report {reported : Report} (held : holds [reported]) :
    Adds source context mayFail (fun _ => True) holds (report reported) :=
  ⟨.ok (), [reported], trivial, held, fun _ _ => rfl⟩

theorem Adds.emit {event : Event} (held : holds [.event event context]) :
    Adds source context mayFail (fun _ => True) holds (emit event) :=
  ⟨.ok (), [.event event context], trivial, held, fun _ _ => rfl⟩

/-- An error is reported, or there is no range for it. -/
theorem Adds.complain {notice : Notice} {start stop : Int} {fields : Fields} (none : holds [])
    (one : ∀ diagnostic, notice.between source.document start stop fields = .ok diagnostic →
      holds [.error diagnostic])
    (passes : mayFail ∨ ∃ diagnostic, notice.between source.document start stop fields = .ok diagnostic) :
    Adds source context mayFail (fun _ => True) holds (complain notice start stop fields) := by
  have same : ∀ version, notice.between (source.atVersion version).document start stop fields =
      notice.between source.document start stop fields := fun _ => rfl
  cases made : notice.between source.document start stop fields with
  | ok diagnostic =>
      refine ⟨.ok (), [.error diagnostic], trivial, one diagnostic made, fun version reports => ?_⟩
      simp only [Parser.complain, same, made, Parser.report]
  | error fault =>
      rw [made] at passes
      refine ⟨.error fault, [], passes.resolve_right (by simp), none, fun version reports => ?_⟩
      simp only [Parser.complain, same, made, List.append_nil]

/-- An error about a stretch is all that is added. -/
theorem Adds.told {notice : Notice} {start stop : Int} {fields : Fields} (le : start ≤ stop)
    (fit : notice.message.fits (fields.map (·.1)) = true)
    (one : ∀ diagnostic, notice.between source.document start stop fields = .ok diagnostic →
      holds [.error diagnostic]) :
    Adds source context mayFail (fun _ => True) holds (Parser.complain notice start stop fields) := by
  obtain ⟨diagnostic, made⟩ : ∃ diagnostic, notice.between source.document start stop fields =
      .ok diagnostic := Notice.exists_between le fit
  refine ⟨.ok (), [.error diagnostic], trivial, one diagnostic made, fun version reports => ?_⟩
  have same : notice.between (source.atVersion version).document start stop fields = .ok diagnostic := made
  simp only [Parser.complain, same, Parser.report]

/-- Where there is no range for an error, what would follow is not read. -/
theorem Adds.afterComplaint {notice : Notice} {start stop : Int} {fields : Fields}
    {next : Unit → Parser α} (failed : mayFail) (none : holds [])
    (more : ∀ diagnostic, notice.between source.document start stop fields = .ok diagnostic →
      Adds source context mayFail gives (fun added => holds (.error diagnostic :: added)) (next ())) :
    Adds source context mayFail gives holds (Parser.complain notice start stop fields >>= next) := by
  have same : ∀ version, notice.between (source.atVersion version).document start stop fields =
      notice.between source.document start stop fields := fun _ => rfl
  cases made : notice.between source.document start stop fields with
  | ok diagnostic =>
      obtain ⟨outcome, added, settles, held, ran⟩ := more diagnostic made
      refine ⟨outcome, .error diagnostic :: added, settles, held, fun version reports => ?_⟩
      simp only [Bind.bind, Parser.complain, same, made, Parser.report, ran, List.append_assoc,
        List.singleton_append]
  | error fault =>
      refine ⟨.error fault, [], failed, none, fun version reports => ?_⟩
      simp only [Bind.bind, Parser.complain, same, made, List.append_nil]

/-- Where there is a range for an error, it is the first thing that is added. -/
theorem Adds.afterError {notice : Notice} {start stop : Int} {fields : Fields} {diagnostic : Diagnostic}
    {next : Unit → Parser α} (made : notice.between source.document start stop fields = .ok diagnostic)
    (adds : Adds source context mayFail gives (fun added => holds (.error diagnostic :: added)) (next ())) :
    Adds source context mayFail gives holds (Parser.complain notice start stop fields >>= next) := by
  obtain ⟨outcome, added, settles, held, ran⟩ := adds
  refine ⟨outcome, .error diagnostic :: added, settles, held, fun version reports => ?_⟩
  have same : notice.between (source.atVersion version).document start stop fields = .ok diagnostic := made
  simp only [Bind.bind, Parser.complain, same, Parser.report, ran, List.append_assoc, List.singleton_append]

theorem Adds.locate {start stop : Int} (none : holds [])
    (passes : mayFail ∨ ∃ location, source.document.locationAt start stop = .ok location) :
    Adds source context mayFail
      (fun location => source.document.locationAt start stop = .ok location) holds
      (locate start stop) := by
  refine ⟨source.document.locationAt start stop, [], ?_, none, fun version reports => ?_⟩
  · cases located : source.document.locationAt start stop with
    | ok location => rfl
    | error fault =>
        rw [located] at passes
        exact passes.resolve_right (by simp)
  · have same : (source.atVersion version).document.locationAt start stop =
        source.document.locationAt start stop := rfl
    simp only [Parser.locate, same, List.append_nil]

/-- Where there is a range, what follows is read with it. -/
theorem Adds.afterLocate {start stop : Int} {location : Location} {next : Location → Parser α}
    (located : source.document.locationAt start stop = .ok location)
    (adds : Adds source context mayFail gives holds (next location)) :
    Adds source context mayFail gives holds (Parser.locate start stop >>= next) := by
  obtain ⟨outcome, new, settles, held, ran⟩ := adds
  refine ⟨outcome, new, settles, held, fun version reports => ?_⟩
  have same : (source.atVersion version).document.locationAt start stop = .ok location := located
  simp only [Bind.bind, Parser.locate, same, ran]

/-- Where the address of the document can be read, what follows is read with what it tells. -/
theorem Adds.afterStartup {told : Bool} {next : Bool → Parser α}
    (startup : Uri.isStartup source.startupFile source.document.uri = .ok told)
    (adds : Adds source context mayFail gives holds (next told)) :
    Adds source context mayFail gives holds (Parser.isStartup >>= next) := by
  obtain ⟨outcome, new, settles, held, ran⟩ := adds
  refine ⟨outcome, new, settles, held, fun version reports => ?_⟩
  have same : Uri.isStartup (source.atVersion version).startupFile (source.atVersion version).document.uri =
      .ok told := startup
  simp only [Bind.bind, Parser.isStartup, same, ran]

/-- What is told of the constructs around is told by the context. -/
theorem Adds.afterIsInside {element : Element} {next : Bool → Parser α}
    (adds : Adds source context mayFail gives holds (next (context.stack.contains element))) :
    Adds source context mayFail gives holds (Parser.isInside element >>= next) := by
  obtain ⟨outcome, new, settles, held, ran⟩ := adds
  refine ⟨outcome, new, settles, held, fun version reports => ?_⟩
  simp only [Bind.bind, Parser.isInside, ran]

/-- An event is the first thing that is added. -/
theorem Adds.afterEmit {event : Event} {next : Unit → Parser α}
    (adds : Adds source context mayFail gives (fun added => holds (.event event context :: added))
      (next ())) :
    Adds source context mayFail gives holds (Parser.emit event >>= next) := by
  obtain ⟨outcome, added, settles, held, ran⟩ := adds
  refine ⟨outcome, .event event context :: added, settles, held, fun version reports => ?_⟩
  simp only [Bind.bind, Parser.emit, Parser.report, ran, List.append_assoc, List.singleton_append]

theorem Adds.within {element : Element} {body : Parser α}
    (adds : Adds source ⟨context.command, element :: context.stack⟩ mayFail gives holds body) :
    Adds source context mayFail gives holds (within element body) := by
  obtain ⟨outcome, new, settles, held, ran⟩ := adds
  refine ⟨outcome, new, settles, held, fun version reports => ?_⟩
  simp only [Parser.within, ran, List.tail_cons]

/-- A command is read where no command is being read. -/
theorem Adds.duringCommand {name : String} {stack : List Element} {body : Parser α}
    (adds : Adds source ⟨some name, .command :: stack⟩ mayFail gives holds body) :
    Adds source ⟨none, stack⟩ mayFail gives holds (duringCommand name body) := by
  obtain ⟨outcome, new, settles, held, ran⟩ := adds
  refine ⟨outcome, new, settles, held, fun version reports => ?_⟩
  simp only [Parser.duringCommand, Parser.within, ran, List.tail_cons]

/-- A value in the place of another adds nothing. -/
theorem Adds.giving {first : Parser α} (adds : Adds source context mayFail gives holds first)
    (value : β) : Adds source context mayFail (fun _ => True) holds (first >>= fun _ => Pure.pure value) := by
  obtain ⟨outcome, new, settles, held, ran⟩ := adds
  cases outcome with
  | error fault =>
      refine ⟨.error fault, new, settles, held, fun version reports => ?_⟩
      simp only [Bind.bind, ran]
  | ok other =>
      refine ⟨.ok value, new, trivial, held, fun version reports => ?_⟩
      simp only [Bind.bind, Pure.pure, ran]

theorem Adds.discard {first : Parser α} (adds : Adds source context mayFail gives holds first) :
    Adds source context mayFail (fun _ => True) holds (discard first) :=
  adds.giving ()

/-- What members add one after another has what the parts have, if it carries over to joined parts. -/
theorem Adds.forM {list : List β} {step : β → Parser Unit} (none : holds [])
    (joined : ∀ new added, holds new → holds added → holds (new ++ added))
    (each : ∀ member ∈ list, Adds source context mayFail (fun _ => True) holds (step member)) :
    Adds source context mayFail (fun _ => True) holds (list.forM step) := by
  induction list with
  | nil => exact .pure trivial none
  | cons first rest ih =>
      exact Adds.bind (each first (by simp)) (fun _ _ => ih fun member later =>
        each member (by simp [later])) (fun _ held => held) joined

end Rules

/-- Of what is told of, a parser reports the first of those that are wanted, and all of them if it
passes. -/
def Lists {γ : Type} (source : Source) (context : Context) (told : Report → Option γ) (wanted : List γ)
    (parser : Parser α) : Prop :=
  ∃ outcome new, new.filterMap told <+: wanted ∧
    (∀ value, outcome = .ok value → new.filterMap told = wanted) ∧ ∀ version reports,
      parser (source.atVersion version) ⟨context.command, context.stack, reports⟩ =
        (outcome, ⟨context.command, context.stack, reports ++ new⟩)

section Lists

variable {γ : Type} {source : Source} {context : Context} {told : Report → Option γ} {wanted more : List γ}

theorem Lists.of_adds {parser : Parser α}
    (adds : Adds source context True (fun _ => True) (fun new => new.filterMap told = wanted) parser) :
    Lists source context told wanted parser := by
  obtain ⟨outcome, new, -, held, ran⟩ := adds
  exact ⟨outcome, new, held ▸ List.prefix_rfl, fun _ _ => held, ran⟩

theorem Lists.bind {first : Parser α} {next : α → Parser β}
    (early : Lists source context told wanted first)
    (late : ∀ value, Lists source context told more (next value)) :
    Lists source context told (wanted ++ more) (first >>= next) := by
  obtain ⟨outcome, new, begins, all, ran⟩ := early
  cases outcome with
  | error fault =>
      refine ⟨.error fault, new, begins.trans (List.prefix_append _ _), fun _ passed => (nomatch passed), ?_⟩
      intro version reports
      simp only [Bind.bind, ran]
  | ok value =>
      obtain ⟨result, added, beginsNext, allNext, ranNext⟩ := late value
      have here : new.filterMap told = wanted := all value rfl
      refine ⟨result, new ++ added, ?_, fun last passed => ?_, fun version reports => ?_⟩
      · rw [List.filterMap_append, here]
        exact (List.prefix_append_right_inj _).2 beginsNext
      · rw [List.filterMap_append, here, allNext last passed]
      · simp only [Bind.bind, ran, ranNext, List.append_assoc]

/-- Where nothing is told of, what is wanted comes from what follows. -/
theorem Lists.after {first : Parser α} {next : α → Parser β}
    (quiet : Adds source context True (fun _ => True) (fun new => new.filterMap told = []) first)
    (late : ∀ value, Lists source context told wanted (next value)) :
    Lists source context told wanted (first >>= next) :=
  (Lists.of_adds quiet).bind late

theorem Lists.afterLocate {start stop : Int} {location : Location} {next : Location → Parser α}
    (located : source.document.locationAt start stop = .ok location)
    (lists : Lists source context told wanted (next location)) :
    Lists source context told wanted (locate start stop >>= next) := by
  obtain ⟨outcome, new, begins, all, ran⟩ := lists
  refine ⟨outcome, new, begins, all, fun version reports => ?_⟩
  have same : (source.atVersion version).document.locationAt start stop = .ok location := located
  simp only [Bind.bind, locate, same, ran]

theorem Lists.readDocument {next : Document → Parser α}
    (same : ∀ version, next (source.atVersion version).document = next source.document)
    (lists : Lists source context told wanted (next source.document)) :
    Lists source context told wanted (document >>= next) := by
  obtain ⟨outcome, new, begins, all, ran⟩ := lists
  refine ⟨outcome, new, begins, all, fun version reports => ?_⟩
  simp only [Bind.bind, document, same, ran]

theorem Lists.emit {event : Event} {post : γ} (same : told (.event event context) = some post) :
    Lists source context told [post] (emit event) :=
  .of_adds (Adds.emit (by simp [same]))

theorem Lists.duringCommand {name : String} {stack : List Element} {body : Parser α}
    (lists : Lists source ⟨some name, .command :: stack⟩ told wanted body) :
    Lists source ⟨none, stack⟩ told wanted (duringCommand name body) := by
  obtain ⟨outcome, new, begins, all, ran⟩ := lists
  refine ⟨outcome, new, begins, all, fun version reports => ?_⟩
  simp only [Parser.duringCommand, Parser.within, ran, List.tail_cons]

/-- What members are told of as is listed in their order. -/
theorem Lists.forM {list : List β} {about : β → Option γ} {step : β → Parser Unit}
    (each : ∀ member ∈ list, Lists source context told (about member).toList (step member)) :
    Lists source context told (list.filterMap about) (list.forM step) := by
  induction list with
  | nil => exact .of_adds (Adds.pure trivial rfl)
  | cons first rest ih =>
      have split : (first :: rest).filterMap about = (about first).toList ++ rest.filterMap about := by
        cases known : about first <;> simp [known]
      rw [split]
      exact Lists.bind (each first List.mem_cons_self) fun _ =>
        ih fun member later => each member (List.mem_cons_of_mem _ later)

/-- What a parser lists from the start is what it reports. -/
theorem Lists.run_eq {parser : Parser α} (lists : Lists source ⟨none, []⟩ told wanted parser) :
    (parser.run source).2.reports.filterMap told <+: wanted ∧
      ∀ value, (parser.run source).1 = .ok value →
        (parser.run source).2.reports.filterMap told = wanted := by
  obtain ⟨outcome, new, begins, all, ran⟩ := lists
  have whole : parser.run source = (outcome, ⟨none, [], new⟩) := ran source.document.version []
  rw [whole]
  exact ⟨begins, all⟩

end Lists

end Parser

end ChoiceScript
