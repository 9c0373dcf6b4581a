import ChoiceScript.Proofs.Mention.Basic

/-! # Mentions that stand apart

`Lays … first last lo hi parser` says more of a parser than where its mentions start. All that it
reports lies between `first` and `last`, and each mention stops before the next one starts, so that
they share out what lies between `lo` and `hi`. What is reported of a construct that is given up may
lie before `lo`, at its opener.
-/

namespace ChoiceScript

/-- The ranges of a document that a report tells of. -/
def Report.ranges : Report → List Range
  | .error diagnostic => [diagnostic.range]
  | .event (.command _ _ _ _ location) _ => [location.range]
  | .event (.symbol _ _ location) _ => [location.range]
  | .event (.flow jump) _ => (jump.commandLocation ::
      (jump.labelLocation.toList ++ jump.sceneLocation.toList)).map (·.range)
  | .event (.scenes _ location) _ => [location.range]

/-- A range lies between two offsets. -/
def Document.Frames (document : Document) (first last : Int) (range : Range) : Prop :=
  ∃ start stop : Int, first ≤ start ∧ start ≤ stop ∧ stop ≤ last ∧
    range.start = document.positionAt start ∧ range.stop = document.positionAt stop

/-- The offset where a mention stops. -/
def Mention.stop (mention : Mention) (document : Document) : Nat :=
  document.offsetAt mention.location.range.stop

/-- All that is reported lies between two offsets, and the mentions share out what lies between two
others. -/
structure Laid (document : Document) (command : Option String) (first last lo hi : Int)
    (reports : List Report) : Prop where
  framed : ∀ report ∈ reports, ∀ range ∈ report.ranges, document.Frames first last range
  apart : ∃ spans : List (Int × Int), spans.Pairwise (fun a b => a.2 ≤ b.1) ∧
    (∀ span ∈ spans, lo ≤ span.1 ∧ span.1 < span.2 ∧ span.2 ≤ hi) ∧
    (mentions reports).map (fun mention =>
        (mention.location.range.start, mention.location.range.stop, mention.command)) =
      spans.map fun span => (document.positionAt span.1, document.positionAt span.2, command)

/-- All that is reported lies between two offsets of a document, and the mentions among it follow one
another: each is somewhere else, and further right than the end of the one before. -/
structure Contained (document : Document) (first last : Nat) (reports : List Report) : Prop where
  inside : ∀ report ∈ reports, ∀ range ∈ report.ranges,
    first ≤ document.offsetAt range.start ∧
      document.offsetAt range.start ≤ document.offsetAt range.stop ∧
      document.offsetAt range.stop ≤ last
  solid : ∀ mention ∈ mentions reports, mention.start document < mention.stop document
  apart : (mentions reports).Pairwise fun a b => a.stop document ≤ b.start document
  rising : (mentions reports).Pairwise (Mention.Before document)
  once : ((mentions reports).map (·.location)).Nodup

variable {document : Document} {first last : Int}

namespace Document.Frames

theorem widen {first' last' : Int} {range : Range} (frames : document.Frames first last range)
    (before : first' ≤ first) (behind : last ≤ last') : document.Frames first' last' range := by
  obtain ⟨start, stop, after, le, ends, same⟩ := frames
  exact ⟨start, stop, by omega, le, by omega, same⟩

/-- In the text a range lies where it is read. -/
theorem offsets {range : Range} (frames : document.Frames first last range) (inText : 0 ≤ first)
    (ends : last ≤ document.text.length) :
    first ≤ document.offsetAt range.start ∧
      document.offsetAt range.start ≤ document.offsetAt range.stop ∧
      document.offsetAt range.stop ≤ last := by
  obtain ⟨start, stop, after, le, before, starts, stops⟩ := frames
  rw [starts, stops, offsetAt_positionAt, offsetAt_positionAt]
  simp only [clamp]
  omega

end Document.Frames

namespace Laid

variable {command : Option String} {lo mid hi : Int} {new added : List Report}

theorem of_silent (silent : mentions new = [])
    (framed : ∀ report ∈ new, ∀ range ∈ report.ranges, document.Frames first last range) :
    Laid document command first last lo hi new :=
  ⟨framed, [], .nil, by simp, by simp [silent]⟩

theorem widen {first' last' lo' hi' : Int} (laid : Laid document command first last lo hi new)
    (before : first' ≤ first) (behind : last ≤ last') (start : lo' ≤ lo) (stop : hi ≤ hi') :
    Laid document command first' last' lo' hi' new where
  framed report member range part := (laid.framed report member range part).widen before behind
  apart := by
    obtain ⟨spans, apart, inside, same⟩ := laid.apart
    refine ⟨spans, apart, fun span member => ?_, same⟩
    have := inside span member
    omega

theorem append (before : Laid document command first last lo mid new)
    (after : Laid document command first last mid hi added) (start : lo ≤ mid) (stop : mid ≤ hi) :
    Laid document command first last lo hi (new ++ added) where
  framed report member := (List.mem_append.1 member).elim (before.framed report) (after.framed report)
  apart := by
    obtain ⟨spans, apart, inside, same⟩ := before.apart
    obtain ⟨others, othersApart, othersInside, othersSame⟩ := after.apart
    refine ⟨spans ++ others, ?_, fun span member => ?_, by simp [same, othersSame]⟩
    · refine List.pairwise_append.2 ⟨apart, othersApart, fun a early b late => ?_⟩
      have := inside a early
      have := othersInside b late
      omega
    · rcases List.mem_append.1 member with early | late
      · have := inside span early
        omega
      · have := othersInside span late
        omega

theorem spanning (document : Document) (command : Option String) (first last : Int) :
    Parser.Spanning (Laid document command first last) where
  none _ _ := .of_silent rfl (by simp)
  widen laid start stop := laid.widen (Int.le_refl _) (Int.le_refl _) start stop
  append := append

/-- Mentions that stand apart start one after another. -/
theorem orderly (laid : Laid document command first last lo hi new) :
    Orderly document command lo hi new := by
  obtain ⟨spans, apart, inside, same⟩ := laid.apart
  refine ⟨spans.map (·.1), ?_, fun place member => ?_, ?_⟩
  · rw [List.pairwise_map]
    apply apart.imp_of_mem
    intro a b early late le
    have := inside a early
    omega
  · obtain ⟨span, present, rfl⟩ := List.mem_map.1 member
    have := inside span present
    omega
  · have mapped := congrArg (List.map fun spot => (spot.1, spot.2.2)) same
    simpa only [List.map_map, Function.comp_def] using mapped

/-- In the text no mention is empty, and each stops before the next one starts. -/
theorem disjoint (laid : Laid document command first last lo hi new) (inText : 0 ≤ lo)
    (ends : hi ≤ document.text.length) :
    (∀ mention ∈ mentions new, mention.start document < mention.stop document) ∧
      (mentions new).Pairwise fun a b => a.stop document ≤ b.start document := by
  obtain ⟨spans, apart, inside, same⟩ := laid.apart
  have offsets : (mentions new).map (fun mention => (mention.start document, mention.stop document)) =
      spans.map fun span => (document.clamp span.1, document.clamp span.2) := by
    have mapped := congrArg
      (List.map fun spot => (document.offsetAt spot.1, document.offsetAt spot.2.1)) same
    simpa only [List.map_map, Function.comp_def, Document.offsetAt_positionAt, Mention.start,
      Mention.stop] using mapped
  constructor
  · intro mention member
    have spot := offsets ▸ List.mem_map_of_mem
      (f := fun mention : Mention => (mention.start document, mention.stop document)) member
    obtain ⟨span, present, found⟩ := List.mem_map.1 spot
    obtain ⟨start, stop⟩ := Prod.mk.inj found
    have := inside span present
    simp only [← start, ← stop, Document.clamp]
    omega
  · have ordered : (spans.map fun span => (document.clamp span.1, document.clamp span.2)).Pairwise
        fun a b => a.2 ≤ b.1 := by
      rw [List.pairwise_map]
      exact apart.imp fun le => document.clamp_mono le
    rwa [← offsets, List.pairwise_map] at ordered

theorem contained {first last : Nat} (laid : Laid document command first last first last new)
    (ends : last ≤ document.text.length) : Contained document first last new := by
  obtain ⟨solid, apart⟩ := laid.disjoint (Int.natCast_nonneg _) (by omega)
  have rising := laid.orderly.rising (Int.natCast_nonneg _) (by omega)
  refine ⟨fun report member range part => ?_, solid, apart, rising, ?_⟩
  · have offsets := (laid.framed report member range part).offsets (Int.natCast_nonneg _) (by omega)
    omega
  · rw [List.Nodup, List.pairwise_map]
    apply rising.imp
    intro a b before same
    rw [Mention.Before, Mention.start, Mention.start, same] at before
    exact Nat.lt_irrefl _ before

end Laid

namespace Parser

variable {α β : Type}

/-- All that a parser adds lies between two offsets, and its mentions share out what lies between two
others. -/
abbrev Lays (source : Source) (context : Context) (mayFail : Prop) (gives : α → Prop)
    (first last lo hi : Int) (parser : Parser α) : Prop :=
  Adds source context mayFail gives (Laid source.document context.command first last lo hi) parser

section Rules

variable {source : Source} {context : Context} {mayFail : Prop} {gives : α → Prop} {wants : β → Prop}
  {first last lo mid hi : Int}

theorem Lays.reads {parser : Parser α}
    (lays : Lays source context mayFail gives first last lo hi parser) :
    Reads source context mayFail gives lo hi parser :=
  lays.mono (fun _ given => given) fun _ => Laid.orderly

theorem Lays.widen {parser : Parser α} {first' last' lo' hi' : Int}
    (lays : Lays source context mayFail gives first last lo hi parser) (before : first' ≤ first)
    (behind : last ≤ last') (start : lo' ≤ lo) (stop : hi ≤ hi') :
    Lays source context mayFail gives first' last' lo' hi' parser :=
  lays.mono (fun _ given => given) fun _ laid => laid.widen before behind start stop

theorem Lays.pure {value : α} (given : gives value) :
    Lays source context mayFail gives first last lo hi (Pure.pure value) :=
  Adds.pure given (.of_silent rfl (by simp))

theorem Lays.bind (mid : Int) {one : Parser α} {next : α → Parser β}
    (lays : Lays source context mayFail gives first last lo mid one)
    (more : ∀ value, gives value → Lays source context mayFail wants first last mid hi (next value))
    (before : lo ≤ mid) (after : mid ≤ hi) :
    Lays source context mayFail wants first last lo hi (one >>= next) :=
  (Laid.spanning _ _ _ _).bind mid lays more before after

theorem Lays.within {element : Element} {body : Parser α}
    (lays : Lays source ⟨context.command, element :: context.stack⟩ mayFail gives first last lo hi
      body) :
    Lays source context mayFail gives first last lo hi (within element body) :=
  Adds.within lays

theorem Lays.discard {one : Parser α}
    (lays : Lays source context mayFail gives first last lo hi one) :
    Lays source context mayFail (fun _ => True) first last lo hi (discard one) :=
  Adds.discard lays

theorem Lays.lift {outcome : Except Fault α} {value : α} (passed : outcome = .ok value) :
    Lays source context mayFail (· = value) first last lo hi (lift outcome) :=
  Adds.lift (passed ▸ rfl) (.of_silent rfl (by simp))

/-- An error that is reported mentions nothing. -/
theorem Lays.reportError {diagnostic : Diagnostic}
    (framed : source.document.Frames first last diagnostic.range) :
    Lays source context mayFail (fun _ => True) first last lo hi (report (.error diagnostic)) :=
  Adds.report (.of_silent rfl (by simpa [Report.ranges] using framed))

theorem frames_of_between {notice : Notice} {document : Document} {start stop : Int} {fields : Fields}
    {diagnostic : Diagnostic} (made : notice.between document start stop fields = .ok diagnostic)
    (before : first ≤ start) (le : start ≤ stop) (behind : stop ≤ last) :
    document.Frames first last diagnostic.range := by
  rw [Notice.range_of_between made le]
  exact ⟨start, stop, before, le, behind, rfl, rfl⟩

/-- An error mentions nothing, and lies where it is complained of. -/
theorem Lays.complain {notice : Notice} {start stop : Int} {fields : Fields}
    (fit : notice.message.fits (fields.map (·.1)) = true) (before : first ≤ start) (le : start ≤ stop)
    (behind : stop ≤ last) : Lays source context mayFail (fun _ => True) first last lo hi
      (complain notice start stop fields) := by
  refine Adds.told le fit fun diagnostic made => .of_silent rfl ?_
  simpa [Report.ranges] using frames_of_between made before le behind

theorem Lays.emitReference {name : Text} {index : Int} (nonempty : name ≠ []) (before : first ≤ index)
    (behind : index + name.length ≤ last) :
    Lays source context mayFail (fun _ => True) first last index (index + name.length)
      (emitSymbol .reference name index) := by
  have long := List.length_pos_iff.2 nonempty
  have le : index ≤ index + name.length := by omega
  have located : source.document.locationAt index (index + name.length) = _ :=
    Document.locationAt_eq le
  refine (Laid.spanning _ _ _ _).after (by omega)
    (.locate (.of_silent rfl (by simp)) (.inr ⟨_, located⟩)) fun location found => Adds.emit ?_
  rw [located, Except.ok.injEq] at found
  subst found
  refine ⟨?_, [(index, index + name.length)], by simp, by simp; omega, rfl⟩
  simpa [Report.ranges] using ⟨index, _, before, by omega, behind, rfl, rfl⟩

end Rules

end Parser

end ChoiceScript
