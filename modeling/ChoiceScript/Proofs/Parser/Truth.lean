import ChoiceScript.Proofs.Parser.Logic
import ChoiceScript.Proofs.Text.Pieces

/-! # Truthful reports

A report is truthful when its document has the reported name at the reported place. A jump says
besides that each of its targets is computed, in braces, or made of the characters of labels.
-/

namespace ChoiceScript

structure FlowEvent.Truthful (document : Document) (event : FlowEvent) : Prop where
  command : document.Quotes event.commandLocation event.command.toList
  label : ∀ location ∈ event.labelLocation, document.Quotes location event.label.toList
  scene : ∀ location ∈ event.sceneLocation, document.Quotes location event.scene.toList
  labelTarget : Text.IsTarget event.label.toList
  sceneTarget : Text.IsTarget event.scene.toList

/-- What a report says of its document is so. -/
def Report.Truthful (document : Document) : Report → Prop
  | .event (.command _ name _ _ location) _ => document.Quotes location name.toList
  | .event (.symbol _ name location) _ => document.Quotes location name.toList
  | .event (.flow jump) _ => jump.Truthful document
  | .event (.scenes _ location) _ => document.Holds location
  | .error diagnostic => document.Covers diagnostic.range

namespace Parser

variable {α β : Type} {source : Source}

/-- A parser reports truth only, and fails only where the document's address cannot be read. -/
abbrev Truthful (source : Source) (parser : Parser α) : Prop :=
  Meets source (Report.Truthful source.document) (fun _ => True) parser

theorem Truthful.bind {first : Parser α} {next : α → Parser β} (before : Truthful source first)
    (after : ∀ value, Truthful source (next value)) : Truthful source (first >>= next) :=
  Meets.bind before fun value _ => after value

theorem Truthful.readDocument {next : Document → Parser α}
    (truthful : Truthful source (next source.document)) : Truthful source (document >>= next) := by
  apply Meets.bind Meets.document
  intro read same
  rwa [same]

theorem Truthful.discard {first : Parser α} (truthful : Truthful source first) :
    Truthful source (discard first) :=
  Meets.discard truthful

theorem Truthful.branch {condition : Prop} [Decidable condition] {first second : Parser α}
    {next : α → Parser β} (holds : condition → Truthful source first)
    (fails : ¬ condition → Truthful source second) (after : ∀ value, Truthful source (next value)) :
    Truthful source (if condition then first >>= next else second >>= next) :=
  Meets.branch holds fails fun value _ => after value

theorem Truthful.complain {notice : Notice} {start stop : Int} {fields : Fields} (le : start ≤ stop)
    (fit : notice.message.fits (fields.map (·.1)) = true) :
    Truthful source (complain notice start stop fields) :=
  Meets.complain le fit fun _ covered => covered

theorem Truthful.emitSymbol {role : SymbolRole} {name : Text} {index : Int}
    (copies : source.document.Copies name index) : Truthful source (emitSymbol role name index) := by
  apply Meets.bind (Meets.locate (by omega))
  intro location located
  apply Meets.emit
  intro context
  rw [Report.Truthful, String.toList_ofList]
  exact copies.quotes located

end Parser

end ChoiceScript
