import ChoiceScript.Diagnostic.Catalogue
import ChoiceScript.Proofs.Document.Quotation
import ChoiceScript.Proofs.Outcome

/-! # Rendering messages

A message can be rendered when it is given no field at all, or every field that it names and it has
no closing brace of its own. A diagnostic is made whenever its message can be rendered and its
offsets stand in order.
-/

namespace ChoiceScript

namespace Template

/-- Can the segment be written when the named fields are given? -/
def segmentFits (names : List String) : Segment → Bool
  | .text text => !text.toList.contains '\x7d'
  | .field name => names.contains name

/-- Can the template be rendered when the named fields are given? -/
def fits (template : Template) (names : List String) : Bool :=
  names.isEmpty || template.all (segmentFits names)

theorem exists_lookup {fields : Fields} {name : String}
    (member : name ∈ fields.map (·.1)) : ∃ value, fields.lookup name = some value := by
  induction fields with
  | nil => simp at member
  | cons first rest ih =>
      rw [List.lookup_cons]
      split
      · exact ⟨_, rfl⟩
      · rename_i other
        refine ih ?_
        rcases List.mem_cons.1 member with rfl | later
        · simp at other
        · exact later

theorem fill_ok {template : Template} {fields : Fields}
    (fit : template.all (segmentFits (fields.map (·.1))) = true) :
    ∃ message, template.fill fields = .ok message := by
  unfold fill
  refine (Outcome.mapM_passes fun segment member => ?_).elim fun texts filled =>
    ⟨String.join texts, by rw [filled]; rfl⟩
  have held := List.all_eq_true.1 fit segment member
  cases segment with
  | text text =>
      simp only [segmentFits, Bool.not_eq_true'] at held
      exact ⟨text, by simp only [held]; rfl⟩
  | field name =>
      have given : name ∈ fields.map (·.1) := by simpa [segmentFits] using held
      obtain ⟨value, found⟩ := exists_lookup given
      exact ⟨value, by simp only [found]⟩

theorem render_ok {template : Template} {fields : Fields}
    (fit : template.fits (fields.map (·.1)) = true) :
    ∃ message, template.render fields = .ok message := by
  unfold render
  cases empty : fields.isEmpty with
  | true => exact ⟨template.source, rfl⟩
  | false =>
      refine fill_ok ?_
      have some : (fields.map (·.1)).isEmpty = false := by simpa using empty
      simpa only [fits, some, Bool.false_or] using fit

end Template

namespace Notice

theorem onRange_ok {notice : Notice} {fields : Fields} (range : Range)
    (fit : notice.message.fits (fields.map (·.1)) = true) :
    ∃ diagnostic, notice.onRange range fields = .ok diagnostic ∧ diagnostic.range = range := by
  obtain ⟨message, rendered⟩ := Template.render_ok fit
  simp only [onRange, rendered]
  exact ⟨_, rfl, rfl⟩

/-- A diagnostic has everything but its message and its range from its kind. -/
theorem onRange_eq_ok {notice : Notice} {range : Range} {fields : Fields} {diagnostic : Diagnostic}
    (made : notice.onRange range fields = .ok diagnostic) :
    ∃ message, notice.message.render fields = .ok message ∧ diagnostic =
      ⟨notice.code, message, range, notice.severity, notice.hint, some notice.category⟩ := by
  obtain ⟨message, rendered, same⟩ := Outcome.bind_eq_ok made
  exact ⟨message, rendered, (Except.ok.inj same).symm⟩

/-- A notice makes a diagnostic, on some range and with some fields. -/
def Makes (notice : Notice) (diagnostic : Diagnostic) : Prop :=
  ∃ range fields, notice.onRange range fields = .ok diagnostic

/-- Only the message and the range of what a notice makes are its own. -/
theorem Makes.eq {notice : Notice} {diagnostic : Diagnostic} (makes : notice.Makes diagnostic) :
    diagnostic = ⟨notice.code, diagnostic.message, diagnostic.range, notice.severity, notice.hint,
      some notice.category⟩ := by
  obtain ⟨range, fields, made⟩ := makes
  obtain ⟨message, -, rfl⟩ := onRange_eq_ok made
  rfl

theorem Makes.code {notice : Notice} {diagnostic : Diagnostic} (makes : notice.Makes diagnostic) :
    diagnostic.code = notice.code := by
  rw [makes.eq]

theorem makes_of_between {notice : Notice} {document : Document} {start stop : Int} {fields : Fields}
    {diagnostic : Diagnostic} (made : notice.between document start stop fields = .ok diagnostic) :
    notice.Makes diagnostic := by
  obtain ⟨range, -, onRange⟩ := Outcome.bind_eq_ok made
  exact ⟨range, fields, onRange⟩

theorem range_of_onRange {notice : Notice} {range : Range} {fields : Fields} {diagnostic : Diagnostic}
    (made : notice.onRange range fields = .ok diagnostic) : diagnostic.range = range := by
  obtain ⟨message, -, rfl⟩ := onRange_eq_ok made
  rfl

theorem code_of_onRange {notice : Notice} {range : Range} {fields : Fields} {diagnostic : Diagnostic}
    (made : notice.onRange range fields = .ok diagnostic) : diagnostic.code = notice.code := by
  obtain ⟨message, -, rfl⟩ := onRange_eq_ok made
  rfl

theorem code_of_between {notice : Notice} {document : Document} {start stop : Int} {fields : Fields}
    {diagnostic : Diagnostic} (made : notice.between document start stop fields = .ok diagnostic) :
    diagnostic.code = notice.code := by
  obtain ⟨range, -, onRange⟩ := Outcome.bind_eq_ok made
  exact code_of_onRange onRange

theorem category_of_between {notice : Notice} {document : Document} {start stop : Int} {fields : Fields}
    {diagnostic : Diagnostic} (made : notice.between document start stop fields = .ok diagnostic) :
    diagnostic.category = some notice.category := by
  obtain ⟨range, -, onRange⟩ := Outcome.bind_eq_ok made
  obtain ⟨message, -, rfl⟩ := onRange_eq_ok onRange
  rfl

theorem range_of_between {notice : Notice} {document : Document} {start stop : Int} {fields : Fields}
    {diagnostic : Diagnostic} (made : notice.between document start stop fields = .ok diagnostic)
    (le : start ≤ stop) : diagnostic.range =
      ⟨document.positionAt start, document.positionAt stop, Document.positionAt_mono le⟩ := by
  obtain ⟨range, ranged, onRange⟩ := Outcome.bind_eq_ok made
  rw [Document.rangeAt_eq le, Except.ok.injEq] at ranged
  rw [range_of_onRange onRange, ranged]

/-- In the text a diagnostic spans what it is made for. -/
theorem offsets_of_between {notice : Notice} {document : Document} {start stop : Int} {fields : Fields}
    {diagnostic : Diagnostic} (made : notice.between document start stop fields = .ok diagnostic)
    (first : 0 ≤ start) (le : start ≤ stop) (last : stop ≤ document.text.length) :
    document.offsetAt diagnostic.range.start = start ∧
      document.offsetAt diagnostic.range.stop = stop := by
  rw [range_of_between made le, Document.offsetAt_positionAt, Document.offsetAt_positionAt]
  simp only [Document.clamp]
  omega

theorem between_ok {notice : Notice} {document : Document} {start stop : Int} {fields : Fields}
    (le : start ≤ stop) (fit : notice.message.fits (fields.map (·.1)) = true) :
    ∃ diagnostic, notice.between document start stop fields = .ok diagnostic ∧
      document.Covers diagnostic.range := by
  obtain ⟨diagnostic, made, same⟩ := onRange_ok _ fit
  refine ⟨diagnostic, ?_, ?_⟩
  · simp only [between, Document.rangeAt_eq le]
    exact made
  · rw [same]
    exact Document.covers_of_le le rfl rfl

theorem exists_between {notice : Notice} {document : Document} {start stop : Int} {fields : Fields}
    (le : start ≤ stop) (fit : notice.message.fits (fields.map (·.1)) = true) :
    ∃ diagnostic, notice.between document start stop fields = .ok diagnostic :=
  (between_ok le fit).imp fun _ made => made.1

end Notice

end ChoiceScript
