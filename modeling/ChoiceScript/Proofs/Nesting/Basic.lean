import ChoiceScript.Proofs.Diagnostic.Rendering
import ChoiceScript.Proofs.Parser.Effect
import ChoiceScript.Text.Character

/-! # Where events stand

Each event comes with the command that it is part of and the constructs that it stands in. `Nests …
parser` says that what a parser reports stands where the parser reads or in constructs that it enters
there, and that a multireplace in another is reported before what stands in both.
-/

namespace ChoiceScript

def Event.IsReference : Event → Prop
  | .symbol .reference _ _ => True
  | _ => False

/-- Variables are referred to by words, and achievements have names. -/
def Event.Named : Event → Prop
  | .symbol .reference name _ => ∀ c ∈ name.toList, Text.isWord c = true
  | .symbol .achievement name _ => name ≠ ""
  | _ => True

/-- What a command line says besides that there is a command. -/
def Event.IsDetail : Event → Prop
  | .command .. => False
  | event => event.Named

theorem Event.IsDetail.named {event : Event} (detail : event.IsDetail) : event.Named := by
  cases event with
  | command => trivial
  | _ => exact detail

/-- A detail that is neither a jump nor a label to jump to. -/
def Event.IsAside : Event → Prop
  | .flow _ | .symbol .label _ _ => False
  | event => event.IsDetail

theorem Event.IsAside.isDetail {event : Event} (aside : event.IsAside) : event.IsDetail := by
  match event, aside with
  | .symbol .globalVariable .., aside | .symbol .localVariable .., aside
  | .symbol .reference .., aside | .symbol .achievement .., aside
  | .symbol .achieve .., aside | .scenes .., aside => exact aside

/-- Only what rules find has a code that starts like theirs. -/
def Notice.OfReading (notice : Notice) : Prop :=
  "VALIDATE_".toList.isPrefixOf notice.code.toList = false ∧ notice ∈ catalogue

instance (notice : Notice) : Decidable notice.OfReading := inferInstanceAs (Decidable (_ ∧ _))

def Diagnostic.OfReading (diagnostic : Diagnostic) : Prop :=
  ∃ notice : Notice, notice.OfReading ∧ notice.Makes diagnostic

theorem Notice.OfReading.between {notice : Notice} {document : Document} {start stop : Int}
    {fields : Fields} {diagnostic : Diagnostic} (reading : notice.OfReading)
    (made : notice.between document start stop fields = .ok diagnostic) : diagnostic.OfReading :=
  ⟨notice, reading, makes_of_between made⟩

namespace Context

/-- Multireplaces are read in one another. -/
def Deep (context : Context) : Prop := 2 ≤ context.stack.count .multireplacement

/-- A place is the context itself, or only references stand there and it is in constructs that were
entered in the context, of which none is a command. -/
def Holds (context : Context) (event : Event) (place : Context) : Prop :=
  place.command = context.command ∧
    ∃ inner, place.stack = inner ++ context.stack ∧ .command ∉ inner ∧ (inner ≠ [] → event.IsReference)

theorem holds_self (context : Context) (event : Event) : context.Holds event context :=
  ⟨rfl, [], rfl, List.not_mem_nil, fun some => absurd rfl some⟩

/-- What stands in a construct that is entered in a context stands in the context. -/
theorem Holds.leave {context place : Context} {element : Element} {event : Event}
    (holds : Holds ⟨context.command, element :: context.stack⟩ event place)
    (construct : element ≠ .command) (reference : event.IsReference) : context.Holds event place := by
  obtain ⟨command, inner, stack, noCommand, -⟩ := holds
  refine ⟨command, inner ++ [element], by simp [stack], ?_, fun _ => reference⟩
  simp [noCommand, construct.symm]

/-- A construct that is left takes no depth away, unless it is a multireplace in another. -/
theorem Deep.leave {context : Context} {element : Element}
    (deep : Deep ⟨context.command, element :: context.stack⟩)
    (alone : element = .multireplacement → .multireplacement ∉ context.stack) : context.Deep := by
  by_cases same : element = .multireplacement
  · have once : (element :: context.stack).count .multireplacement = 1 := by
      rw [same, List.count_cons_self, List.count_eq_zero.2 (alone same)]
    simp only [Deep, once] at deep
    omega
  · rwa [Deep, List.count_cons_of_ne same] at deep

end Context

/-- Some reports say that a multireplace stands in another. -/
def TellsNesting (reports : List Report) : Prop :=
  ∃ diagnostic, .error diagnostic ∈ reports ∧ diagnostic.code = Notice.multireplaceNested.code

/-- Events are where they may be, errors are of reading, and before the first event in two
multireplaces there is an error that says so, if it was not `deep` to begin with. -/
structure Tidy (fits : Event → Context → Prop) (deep : Prop) (reports : List Report) : Prop where
  fits : ∀ {event place}, .event event place ∈ reports → fits event place
  errors : ∀ {diagnostic}, .error diagnostic ∈ reports → diagnostic.OfReading
  told : ∀ {before event place after}, reports = before ++ .event event place :: after →
    place.Deep → deep ∨ TellsNesting before

namespace Tidy

variable {fits fits' : Event → Context → Prop} {deep deep' : Prop} {new added : List Report}

theorem mono (tidy : Tidy fits deep new) (more : ∀ event place, fits event place → fits' event place)
    (deeper : deep → deep') : Tidy fits' deep' new := by
  constructor
  · exact fun member => more _ _ (tidy.fits member)
  · exact tidy.errors
  · exact fun split inBoth => (tidy.told split inBoth).imp_left deeper

theorem nil : Tidy fits deep [] := by
  constructor
  · simp
  · simp
  · simp

theorem single {event : Event} {place : Context} (allowed : fits event place)
    (shallow : place.Deep → deep) : Tidy fits deep [.event event place] := by
  constructor
  · intro other there member
    obtain ⟨rfl, rfl⟩ := Report.event.inj (List.mem_singleton.1 member)
    exact allowed
  · simp
  · intro before other there after split inBoth
    cases before with
    | nil =>
        obtain ⟨rfl, rfl⟩ := Report.event.inj (List.cons.inj split).1
        exact .inl (shallow inBoth)
    | cons first rest => simp at split

theorem append (early : Tidy fits deep new) (late : Tidy fits deep added) :
    Tidy fits deep (new ++ added) := by
  constructor
  · exact fun member => (List.mem_append.1 member).elim early.fits late.fits
  · exact fun member => (List.mem_append.1 member).elim early.errors late.errors
  · intro before event place after split inBoth
    cases List.append_eq_append_iff.1 split with
    | inl later =>
        obtain ⟨rest, rfl, same⟩ := later
        refine (late.told same inBoth).imp_right fun told => ?_
        obtain ⟨diagnostic, member, code⟩ := told
        exact ⟨diagnostic, List.mem_append_right new member, code⟩
    | inr sooner =>
        obtain ⟨rest, same, cut⟩ := sooner
        cases rest with
        | nil =>
            rw [List.append_nil] at same
            have told : deep ∨ TellsNesting [] := late.told cut.symm inBoth
            refine told.imp_right fun ⟨diagnostic, member, _⟩ => ?_
            exact absurd member List.not_mem_nil
        | cons first rest =>
            obtain ⟨rfl, -⟩ := List.cons.inj cut
            exact early.told same inBoth

/-- After an error only the errors before count. -/
theorem error {diagnostic : Diagnostic} (reading : diagnostic.OfReading) :
    Tidy fits deep [.error diagnostic] := by
  constructor
  · simp
  · intro other member
    obtain rfl := Report.error.inj (List.mem_singleton.1 member)
    exact reading
  · intro before event place after split
    cases before with
    | nil => simp at split
    | cons first rest => simp at split

/-- Once it is told that multireplaces nest, it does not matter how deep it goes on. -/
theorem afterTelling {diagnostic : Diagnostic} (tidy : Tidy fits deep added)
    (reading : diagnostic.OfReading) (code : diagnostic.code = Notice.multireplaceNested.code) :
    Tidy fits deep' (.error diagnostic :: added) := by
  constructor
  · intro event place member
    cases List.mem_cons.1 member with
    | inl same => cases same
    | inr later => exact tidy.fits later
  · intro other member
    cases List.mem_cons.1 member with
    | inl same => exact Report.error.inj same ▸ reading
    | inr later => exact tidy.errors later
  · intro before event place after split _
    cases before with
    | nil => cases (List.cons.inj split).1
    | cons first rest =>
        obtain ⟨rfl, -⟩ := List.cons.inj split
        exact .inr ⟨diagnostic, List.mem_cons_self, code⟩

end Tidy

namespace Parser

variable {α β : Type}

/-- What a parser reports is tidy. -/
abbrev Tells (source : Source) (context : Context) (fits : Event → Context → Prop) (deep : Prop)
    (parser : Parser α) : Prop :=
  Adds source context True (fun _ => True) (Tidy fits deep) parser

/-- What a parser reports stands where it reads or in constructs that it enters there. -/
abbrev Nests (source : Source) (allowed : Event → Prop) (context : Context) (parser : Parser α) :
    Prop :=
  Tells source context (fun event place => allowed event ∧ context.Holds event place) context.Deep
    parser

section Rules

variable {source : Source} {context : Context} {fits fits' : Event → Context → Prop} {deep deep' : Prop}

theorem Tells.mono {parser : Parser α} (tells : Tells source context fits deep parser)
    (more : ∀ event place, fits event place → fits' event place) (deeper : deep → deep') :
    Tells source context fits' deep' parser :=
  Adds.mono tells (fun _ given => given) fun _ tidy => tidy.mono more deeper

theorem Tells.pure {value : α} : Tells source context fits deep (Pure.pure value) :=
  Adds.pure trivial .nil

theorem Tells.bind {first : Parser α} {next : α → Parser β} (before : Tells source context fits deep first)
    (after : ∀ value, Tells source context fits deep (next value)) :
    Tells source context fits deep (first >>= next) :=
  Adds.bind before (fun value _ => after value) (fun _ tidy => tidy) fun _ _ => .append

theorem Tells.map {change : α → β} {parser : Parser α} (tells : Tells source context fits deep parser) :
    Tells source context fits deep (change <$> parser) :=
  tells.bind fun _ => .pure

theorem Tells.readDocument {next : Document → Parser α}
    (same : ∀ version, next (source.atVersion version).document = next source.document)
    (tells : Tells source context fits deep (next source.document)) :
    Tells source context fits deep (document >>= next) :=
  Adds.readDocument same tells

/-- What follows is read if there is a value. -/
theorem Tells.afterLift {outcome : Except Fault α} {next : α → Parser β}
    (tells : ∀ value, outcome = .ok value → Tells source context fits deep (next value)) :
    Tells source context fits deep (lift outcome >>= next) :=
  Adds.afterLift trivial .nil tells

theorem Tells.fail {fault : Fault} : Tells source context fits deep (lift (.error fault) : Parser α) :=
  Adds.lift trivial .nil

theorem Tells.afterIsInside {element : Element} {next : Bool → Parser α}
    (tells : Tells source context fits deep (next (context.stack.contains element))) :
    Tells source context fits deep (isInside element >>= next) :=
  Adds.bind (Adds.isInside element Tidy.nil) (fun _ same => same ▸ tells) (fun _ tidy => tidy)
    fun _ _ => Tidy.append

theorem Tells.isStartup : Tells source context fits deep isStartup := Adds.isStartup .nil

theorem Tells.locate {start stop : Int} : Tells source context fits deep (locate start stop) := by
  have located : Adds source context True
      (fun location => source.document.locationAt start stop = .ok location) (Tidy fits deep)
      (Parser.locate start stop) := Adds.locate .nil (.inl trivial)
  exact located.mono (fun _ _ => trivial) fun _ tidy => tidy

theorem Tells.complain {notice : Notice} {start stop : Int} {fields : Fields}
    (reading : notice.OfReading) :
    Tells source context fits deep (complain notice start stop fields) :=
  Adds.complain .nil (fun _ made => .error (reading.between made)) (.inl trivial)

theorem Tells.forM {list : List β} {step : β → Parser Unit}
    (each : ∀ member ∈ list, Tells source context fits deep (step member)) :
    Tells source context fits deep (list.forM step) :=
  Adds.forM .nil (fun _ _ => .append) each

variable {allowed allowed' : Event → Prop}

theorem Nests.allowing {parser : Parser α} (nests : Nests source allowed context parser)
    (more : ∀ event, allowed event → allowed' event) : Nests source allowed' context parser :=
  Tells.mono nests (fun event _ held => ⟨more event held.1, held.2⟩) id

theorem Nests.emit {event : Event} (fine : allowed event) :
    Nests source allowed context (emit event) :=
  Adds.emit (.single ⟨fine, context.holds_self event⟩ id)

theorem Nests.emitSymbol {role : SymbolRole} {name : Text} {index : Int}
    (fine : ∀ location, allowed (.symbol role (String.ofList name) location)) :
    Nests source allowed context (emitSymbol role name index) :=
  Tells.locate.bind fun location => Nests.emit (fine location)

/-- A construct is entered where only references stand deeper. -/
theorem Nests.within {element : Element} {body : Parser α} (construct : element ≠ .command)
    (references : ∀ event, allowed event → event.IsReference)
    (alone : element = .multireplacement → .multireplacement ∉ context.stack)
    (nests : Nests source allowed ⟨context.command, element :: context.stack⟩ body) :
    Nests source allowed context (within element body) := by
  apply Adds.within
  apply Tells.mono nests
  · exact fun event place held => ⟨held.1, held.2.leave construct (references event held.1)⟩
  · exact fun deep => deep.leave alone

/-- A multireplace in another says so before its parts are read. Outside it there are two only if
there are two in any other. -/
theorem Nests.tellingFirst {nested : Bool} {start stop : Int} {fields : Fields} {other : Parser Unit}
    {next : Unit → Parser α}
    (outside : ∀ event place, allowed event → context.Holds event place → fits event place)
    (alone : nested = false → context.Deep → deep) (otherwise : Nests source allowed context other)
    (nests : Nests source allowed context (next ())) :
    Tells source context fits deep
      (if nested = true then complain .multireplaceNested start stop fields >>= next
        else other >>= next) := by
  have fine : ∀ event place, allowed event ∧ context.Holds event place → fits event place :=
    fun event place held => outside event place held.1 held.2
  have reading : Notice.multireplaceNested.OfReading := by decide
  split
  · apply Adds.afterComplaint trivial .nil
    intro diagnostic made
    apply Adds.mono nests (fun _ given => given)
    intro added tidy
    exact (tidy.mono fine id).afterTelling (reading.between made) (Notice.code_of_between made)
  · rename_i notNested
    exact (otherwise.bind fun _ => nests).mono fine (alone (by simpa using notNested))

end Rules

end Parser

end ChoiceScript
