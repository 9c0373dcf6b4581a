import ChoiceScript.Proofs.Diagnostic.Rendering
import ChoiceScript.Proofs.Document.LineTable
import ChoiceScript.Proofs.Parser.Effect
import Mathlib.Data.List.Basic

/-! # Mentions of variables

A document mentions a variable where it reports a reference. `Reads … lo hi parser` says that the
mentions a parser adds stand at offsets that rise from `lo` to below `hi`, all in the command of its
context. Offsets count from the start of the document and need not lie in it, for a location is cut to
the text; in the text the offset of a mention is the one where it is read.
-/

namespace ChoiceScript

/-- A reference to a variable, and the command that it is part of, if any. -/
structure Mention where
  name : String
  location : Location
  command : Option String
  deriving DecidableEq, Repr

/-- The offset where a mention starts. -/
def Mention.start (mention : Mention) (document : Document) : Nat :=
  document.offsetAt mention.location.range.start

/-- One mention stands before another. -/
def Mention.Before (document : Document) (first second : Mention) : Prop :=
  first.start document < second.start document

instance (document : Document) (first second : Mention) : Decidable (first.Before document second) :=
  inferInstanceAs (Decidable (_ < _))

def Report.mention? : Report → Option Mention
  | .event (.symbol .reference name location) context => some ⟨name, location, context.command⟩
  | _ => none

/-- The references to variables among some reports. -/
def mentions (reports : List Report) : List Mention := reports.filterMap Report.mention?

@[simp] theorem mentions_append (new added : List Report) :
    mentions (new ++ added) = mentions new ++ mentions added := List.filterMap_append

/-- Variables are mentioned in a command at offsets that rise from one up to another. -/
def Orderly (document : Document) (command : Option String) (lo hi : Int) (reports : List Report) :
    Prop :=
  ∃ places : List Int, places.Pairwise (· < ·) ∧ (∀ place ∈ places, lo ≤ place ∧ place < hi) ∧
    (mentions reports).map (fun mention => (mention.location.range.start, mention.command)) =
      places.map fun place => (document.positionAt place, command)

namespace Orderly

variable {document : Document} {command : Option String} {lo mid hi : Int} {new added : List Report}

theorem of_silent (silent : mentions new = []) : Orderly document command lo hi new :=
  ⟨[], .nil, by simp, by simp [silent]⟩

theorem widen {lo' hi' : Int} (orderly : Orderly document command lo hi new) (first : lo' ≤ lo)
    (last : hi ≤ hi') : Orderly document command lo' hi' new := by
  obtain ⟨places, increasing, inside, same⟩ := orderly
  refine ⟨places, increasing, fun place member => ?_, same⟩
  have := inside place member
  omega

theorem append (before : Orderly document command lo mid new)
    (after : Orderly document command mid hi added) (first : lo ≤ mid) (last : mid ≤ hi) :
    Orderly document command lo hi (new ++ added) := by
  obtain ⟨places, increasing, inside, same⟩ := before
  obtain ⟨others, othersIncreasing, othersInside, othersSame⟩ := after
  refine ⟨places ++ others, ?_, fun place member => ?_, by simp [same, othersSame]⟩
  · refine List.pairwise_append.2 ⟨increasing, othersIncreasing, fun a early b late => ?_⟩
    have := inside a early
    have := othersInside b late
    omega
  · rcases List.mem_append.1 member with early | late
    · have := inside place early
      omega
    · have := othersInside place late
      omega

theorem single {mention : Mention} {place : Int} (mentioned : mentions new = [mention])
    (start : mention.location.range.start = document.positionAt place)
    (inCommand : mention.command = command) (first : lo ≤ place) (last : place < hi) :
    Orderly document command lo hi new :=
  ⟨[place], by simp, by simp [first, last], by simp [mentioned, start, inCommand]⟩

/-- Every mention is read at a place. -/
theorem place_of_mem (orderly : Orderly document command lo hi new) {mention : Mention}
    (member : mention ∈ mentions new) : mention.command = command ∧
      ∃ place, lo ≤ place ∧ place < hi ∧
        mention.location.range.start = document.positionAt place := by
  obtain ⟨places, -, inside, same⟩ := orderly
  have spot : (mention.location.range.start, mention.command) ∈
      places.map fun place => (document.positionAt place, command) :=
    same ▸ List.mem_map_of_mem member
  obtain ⟨place, present, found⟩ := List.mem_map.1 spot
  obtain ⟨start, inCommand⟩ := Prod.mk.inj found
  exact ⟨inCommand.symm, place, (inside place present).1, (inside place present).2, start.symm⟩

/-- In the text a mention starts where it is read. -/
theorem start_of_mem (orderly : Orderly document command lo hi new) (first : 0 ≤ lo)
    (last : hi ≤ document.text.length) {mention : Mention} (member : mention ∈ mentions new) :
    lo ≤ mention.start document ∧ mention.start document < hi := by
  obtain ⟨-, place, after, before, start⟩ := orderly.place_of_mem member
  have same : mention.start document = document.clamp place := by
    rw [Mention.start, start, Document.offsetAt_positionAt]
  simp only [Document.clamp] at same
  omega

/-- In the text mentions start one after another. -/
theorem rising (orderly : Orderly document command lo hi new) (first : 0 ≤ lo)
    (last : hi ≤ document.text.length) :
    (mentions new).Pairwise (Mention.Before document) := by
  obtain ⟨places, increasing, inside, same⟩ := orderly
  have starts : (mentions new).map (·.start document) = places.map (document.clamp ·) := by
    have mapped := congrArg (List.map fun spot => document.offsetAt spot.1) same
    simpa only [List.map_map, Function.comp_def, Document.offsetAt_positionAt, Mention.start] using mapped
  have ordered : ((mentions new).map (·.start document)).Pairwise (· < ·) := by
    rw [starts, List.pairwise_map]
    apply increasing.imp_of_mem
    intro a b early late less
    have := inside a early
    have := inside b late
    simp only [Document.clamp]
    omega
  rwa [List.pairwise_map] at ordered

end Orderly

/-- Variables are mentioned in a command at or after an offset. -/
def Gathered (document : Document) (command : Option String) (lo : Int) (reports : List Report) :
    Prop :=
  ∀ mention ∈ mentions reports, mention.command = command ∧
    ∃ place, lo ≤ place ∧ mention.location.range.start = document.positionAt place

namespace Gathered

variable {document : Document} {command : Option String} {lo : Int} {new added : List Report}

theorem of_silent (silent : mentions new = []) : Gathered document command lo new := by
  simp [Gathered, silent]

theorem append (before : Gathered document command lo new)
    (after : Gathered document command lo added) : Gathered document command lo (new ++ added) := by
  intro mention member
  rw [mentions_append, List.mem_append] at member
  exact member.elim (before mention) (after mention)

theorem of_orderly {first hi : Int} (orderly : Orderly document command first hi new)
    (le : lo ≤ first) : Gathered document command lo new := by
  intro mention member
  obtain ⟨inCommand, place, after, -, start⟩ := orderly.place_of_mem member
  exact ⟨inCommand, place, by omega, start⟩

end Gathered

namespace Parser

variable {α β : Type}

/-- A property of what is reported between two offsets. It holds between wider offsets too, and it
joins up from the left to the right. -/
structure Spanning (holds : Int → Int → List Report → Prop) : Prop where
  none : ∀ lo hi, holds lo hi []
  widen : ∀ {lo hi lo' hi' new}, holds lo hi new → lo' ≤ lo → hi ≤ hi' → holds lo' hi' new
  append : ∀ {lo mid hi new added}, holds lo mid new → holds mid hi added → lo ≤ mid → mid ≤ hi →
    holds lo hi (new ++ added)

section Spanning

variable {holds : Int → Int → List Report → Prop} (spanning : Spanning holds)
  {source : Source} {context : Context} {mayFail : Prop} {gives : α → Prop} {wants : β → Prop}
  {lo mid hi : Int}

include spanning

/-- What is read first stands first. -/
theorem Spanning.bind (mid : Int) {first : Parser α} {next : α → Parser β}
    (adds : Adds source context mayFail gives (holds lo mid) first)
    (more : ∀ value, gives value → Adds source context mayFail wants (holds mid hi) (next value))
    (before : lo ≤ mid) (after : mid ≤ hi) :
    Adds source context mayFail wants (holds lo hi) (first >>= next) :=
  Adds.bind adds more (fun _ held => spanning.widen held (Int.le_refl lo) after)
    fun _ _ early late => spanning.append early late before after

/-- A first part that stands nowhere takes no room. -/
theorem Spanning.after {first : Parser α} {next : α → Parser β} (le : lo ≤ hi)
    (silent : Adds source context mayFail gives (holds lo lo) first)
    (more : ∀ value, gives value → Adds source context mayFail wants (holds lo hi) (next value)) :
    Adds source context mayFail wants (holds lo hi) (first >>= next) :=
  spanning.bind lo silent more (Int.le_refl lo) le

/-- What follows two branches that stand nowhere is read after either. -/
theorem Spanning.branch {condition : Prop} [Decidable condition] {first second : Parser α}
    {next : α → Parser β} (le : lo ≤ hi)
    (yes : condition → Adds source context mayFail gives (holds lo lo) first)
    (no : ¬ condition → Adds source context mayFail gives (holds lo lo) second)
    (more : ∀ value, gives value → Adds source context mayFail wants (holds lo hi) (next value)) :
    Adds source context mayFail wants (holds lo hi)
      (if condition then first >>= next else second >>= next) := by
  split
  · rename_i passed
    exact spanning.after le (yes passed) more
  · rename_i failed
    exact spanning.after le (no failed) more

/-- Members that stand one after another are read in order. -/
theorem Spanning.forM (start stop : β → Int) {list : List β} {step : β → Parser Unit}
    (each : ∀ member ∈ list, Adds source context mayFail (fun _ => True)
      (holds (start member) (stop member)) (step member))
    (forward : ∀ member ∈ list, lo ≤ start member ∧ start member ≤ stop member ∧ stop member ≤ hi)
    (ordered : list.Pairwise fun a b => stop a ≤ start b) (le : lo ≤ hi) :
    Adds source context mayFail (fun _ => True) (holds lo hi) (list.forM step) := by
  induction list generalizing lo with
  | nil => exact .pure trivial (spanning.none lo hi)
  | cons first rest ih =>
      obtain ⟨before, later⟩ := List.pairwise_cons.1 ordered
      have here := forward first (by simp)
      apply spanning.bind (stop first)
      · exact (each first (by simp)).mono (fun _ given => given) fun _ held =>
          spanning.widen held here.1 (Int.le_refl _)
      · intro _ _
        apply ih (fun member later => each member (by simp [later])) _ later here.2.2
        intro member present
        exact ⟨before member present, (forward member (by simp [present])).2⟩
      · omega
      · exact here.2.2

theorem Spanning.forM_silent {list : List β} {step : β → Parser Unit}
    (each : ∀ member ∈ list, Adds source context mayFail (fun _ => True) (holds lo lo) (step member))
    (le : lo ≤ hi) : Adds source context mayFail (fun _ => True) (holds lo hi) (list.forM step) := by
  apply spanning.forM (fun _ => lo) (fun _ => lo) each
  · exact fun _ _ => ⟨Int.le_refl _, Int.le_refl _, le⟩
  · exact List.pairwise_of_forall fun _ _ => Int.le_refl _
  · exact le

end Spanning

/-- The mentions that a parser adds rise from one offset up to another. -/
abbrev Reads (source : Source) (context : Context) (mayFail : Prop) (gives : α → Prop) (lo hi : Int)
    (parser : Parser α) : Prop :=
  Adds source context mayFail gives (Orderly source.document context.command lo hi) parser

section Rules

variable {source : Source} {context : Context} {mayFail : Prop} {gives : α → Prop} {wants : β → Prop}
  {lo mid hi : Int}

theorem orderly_spanning (document : Document) (command : Option String) :
    Spanning (Orderly document command) where
  none _ _ := .of_silent rfl
  widen := Orderly.widen
  append := Orderly.append

theorem Reads.widen {parser : Parser α} {lo' hi' : Int}
    (reads : Reads source context mayFail gives lo hi parser) (first : lo' ≤ lo) (last : hi ≤ hi') :
    Reads source context mayFail gives lo' hi' parser :=
  reads.mono (fun _ given => given) fun _ orderly => orderly.widen first last

theorem Reads.pure {value : α} (given : gives value) :
    Reads source context mayFail gives lo hi (Pure.pure value) :=
  Adds.pure given (.of_silent rfl)

theorem Reads.bind (mid : Int) {first : Parser α} {next : α → Parser β}
    (reads : Reads source context mayFail gives lo mid first)
    (more : ∀ value, gives value → Reads source context mayFail wants mid hi (next value))
    (before : lo ≤ mid) (after : mid ≤ hi) :
    Reads source context mayFail wants lo hi (first >>= next) :=
  (orderly_spanning _ _).bind mid reads more before after

/-- A first part that mentions nothing takes no room. -/
theorem Reads.after {first : Parser α} {next : α → Parser β} (le : lo ≤ hi)
    (silent : Reads source context mayFail gives lo lo first)
    (more : ∀ value, gives value → Reads source context mayFail wants lo hi (next value)) :
    Reads source context mayFail wants lo hi (first >>= next) :=
  (orderly_spanning _ _).after le silent more

theorem Reads.map {change : α → β} {parser : Parser α} (le : lo ≤ hi)
    (reads : Reads source context mayFail gives lo hi parser)
    (given : ∀ value, gives value → wants (change value)) :
    Reads source context mayFail wants lo hi (change <$> parser) :=
  reads.bind hi (fun value held => .pure (given value held)) le (Int.le_refl hi)

/-- What follows two silent branches is read after either. -/
theorem Reads.branch {condition : Prop} [Decidable condition] {first second : Parser α}
    {next : α → Parser β} (le : lo ≤ hi)
    (yes : condition → Reads source context mayFail gives lo lo first)
    (no : ¬ condition → Reads source context mayFail gives lo lo second)
    (more : ∀ value, gives value → Reads source context mayFail wants lo hi (next value)) :
    Reads source context mayFail wants lo hi
      (if condition then first >>= next else second >>= next) :=
  (orderly_spanning _ _).branch le yes no more

theorem Reads.readDocument {next : Document → Parser α}
    (same : ∀ version, next (source.atVersion version).document = next source.document)
    (reads : Reads source context mayFail gives lo hi (next source.document)) :
    Reads source context mayFail gives lo hi (document >>= next) :=
  Adds.readDocument same reads

theorem Reads.discard {first : Parser α} (reads : Reads source context mayFail gives lo hi first) :
    Reads source context mayFail (fun _ => True) lo hi (discard first) :=
  Adds.discard reads

/-- An error mentions nothing. -/
theorem Reads.complain {notice : Notice} {start stop : Int} {fields : Fields}
    (passes : mayFail ∨ start ≤ stop ∧ notice.message.fits (fields.map (·.1)) = true) :
    Reads source context mayFail (fun _ => True) lo hi (complain notice start stop fields) := by
  apply Adds.complain (.of_silent rfl) fun _ _ => .of_silent rfl
  exact passes.imp_right fun ⟨le, fit⟩ => Notice.exists_between le fit

theorem Reads.reportError {diagnostic : Diagnostic} :
    Reads source context mayFail (fun _ => True) lo hi (report (.error diagnostic)) :=
  Adds.report (.of_silent rfl)

theorem Reads.lift {outcome : Except Fault α} {value : α} (passed : outcome = .ok value) :
    Reads source context mayFail (· = value) lo hi (lift outcome) :=
  Adds.lift (passed ▸ rfl) (.of_silent rfl)

theorem Reads.locate {start stop : Int} (le : start ≤ stop) :
    Reads source context mayFail
      (fun location => source.document.locationAt start stop = .ok location) lo hi
      (locate start stop) :=
  Adds.locate (.of_silent rfl) (.inr ⟨_, Document.locationAt_eq le⟩)

theorem Reads.emit {event : Event} (silent : (Report.event event context).mention? = none) :
    Reads source context mayFail (fun _ => True) lo hi (emit event) :=
  Adds.emit (.of_silent (by simp [mentions, silent]))

/-- Only a reference mentions a variable. -/
theorem Reads.emitOther {role : SymbolRole} {name : Text} {index : Int} (other : role ≠ .reference)
    (le : lo ≤ hi) : Reads source context mayFail (fun _ => True) lo hi (emitSymbol role name index) := by
  apply Reads.after le (.locate (by omega))
  intro location _
  apply Reads.emit
  cases role <;> first | rfl | exact absurd rfl other

theorem Reads.emitReference {name : Text} {index : Int} (first : lo ≤ index) (last : index < hi) :
    Reads source context mayFail (fun _ => True) lo hi (emitSymbol .reference name index) := by
  apply Reads.after (by omega) (.locate (by omega))
  intro location located
  rw [Document.locationAt_eq (by omega), Except.ok.injEq] at located
  subst located
  exact Adds.emit (.single rfl rfl rfl first last)

theorem Reads.forM_silent {list : List β} {step : β → Parser Unit}
    (each : ∀ member ∈ list, Reads source context mayFail (fun _ => True) lo lo (step member))
    (le : lo ≤ hi) : Reads source context mayFail (fun _ => True) lo hi (list.forM step) :=
  (orderly_spanning _ _).forM_silent each le

end Rules

end Parser

end ChoiceScript
