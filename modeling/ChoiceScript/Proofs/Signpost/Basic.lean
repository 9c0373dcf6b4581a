import ChoiceScript.Proofs.Discovery
import ChoiceScript.Proofs.Index.Entries
import ChoiceScript.Proofs.Mention.Command

/-! # Labels and jumps of a command line

Labels and jumps come from command lines, one from a line at most, and what a line gives depends on
its own text and place alone. The name of a label is what a jump with the same arguments leads to,
and the places of a jump are on its line.
-/

namespace ChoiceScript

/-- A label, or a jump or return. -/
inductive Signpost where
  | label (name : String) (location : Location)
  | jump (event : FlowEvent)

namespace Signpost

def label? : Signpost → Option (String × Location)
  | label name location => some (name, location)
  | jump _ => none

def jump? : Signpost → Option FlowEvent
  | label .. => none
  | jump event => some event

theorem label?_eq_some {post : Signpost} {name : String} {location : Location} :
    post.label? = some (name, location) ↔ post = .label name location := by
  cases post <;> simp [label?]

theorem jump?_eq_some {post : Signpost} {event : FlowEvent} :
    post.jump? = some event ↔ post = .jump event := by
  cases post <;> simp [jump?]

end Signpost

def Report.signpost? : Report → Option Signpost
  | .event (.symbol .label name location) _ => some (.label name location)
  | .event (.flow jump) _ => some (.jump jump)
  | _ => none

theorem names_label (reports : List Report) :
    names (· = .label) reports = (reports.filterMap Report.signpost?).filterMap Signpost.label? := by
  rw [List.filterMap_filterMap, names]
  congr 1
  funext report
  rcases report with ⟨event, context⟩ | diagnostic
  · cases event with
    | symbol role => cases role <;> rfl
    | _ => rfl
  · rfl

theorem flows_eq_filterMap (reports : List Report) :
    reports.filterMap Report.flow? = (reports.filterMap Report.signpost?).filterMap Signpost.jump? := by
  rw [List.filterMap_filterMap]
  congr 1
  funext report
  rcases report with ⟨event, context⟩ | diagnostic
  · cases event with
    | symbol role => cases role <;> rfl
    | _ => rfl
  · rfl

/-- Where a piece of a document stands that starts at an offset. -/
def Document.span (document : Document) (start : Nat) (piece : Text) : Location where
  uri := document.uri
  range := {
    start := document.positionAt start
    stop := document.positionAt (start + piece.length)
    start_le_stop := positionAt_mono (by omega) }

theorem Document.locationAt_span (document : Document) (start : Nat) (piece : Text) :
    document.locationAt start (start + piece.length) = .ok (document.span start piece) :=
  locationAt_eq (by omega)

/-- The jump or return of a command, whose name and arguments stand at two offsets. -/
def Document.jump (document : Document) (command : String) (commandStart : Nat) (line : Text)
    (lineStart : Nat) : FlowEvent :=
  let commandLocation := document.span commandStart command.toList
  let (⟨first, _⟩, ⟨second, skipped⟩) := Text.jumpTargets line
  let firstLocation := document.span lineStart first
  if command = "return" then { command, commandLocation }
  else if command = "goto_scene" ∨ command = "gosub_scene" then {
    command, commandLocation
    label := String.ofList second, scene := String.ofList first
    labelLocation := if second = [] then none else some (document.span (lineStart + skipped) second)
    sceneLocation := some firstLocation }
  else {
    command, commandLocation
    label := String.ofList first, labelLocation := some firstLocation }

/-- The label of a command, whose arguments stand at an offset. -/
def Document.label? (document : Document) (line : Text) (lineStart : Nat) : Option Signpost :=
  let label := line.takeWhile Text.isLabel
  if label = [] then none
  else some (.label (String.ofList label) (document.span lineStart label))

/-- What a command with arguments gives, by its name. -/
def Document.post? (document : Document) (command : String) (commandStart : Nat) (line : Text)
    (lineStart : Nat) : Option Signpost :=
  if command = "label" then document.label? line lineStart
  else if command ∈ Vocabulary.flowCommands then
    some (.jump (document.jump command commandStart line lineStart))
  else none

/-- Where the name of a command line stands that starts at an offset. -/
def CommandLine.nameStart (line : CommandLine) (start : Nat) : Nat := start + line.padding.length + 1

/-- Where the arguments of a command line stand that starts at an offset. -/
def CommandLine.restStart (line : CommandLine) (start : Nat) : Nat :=
  line.nameStart start + line.name.length + line.spacing.length

/-- What a command line gives that starts at an offset, unless its arguments are missing. -/
def Document.signpost? (document : Document) (start : Nat) (line : CommandLine) : Option Signpost :=
  if String.ofList line.name ∈ Vocabulary.argumentCommands ∧ Text.blank line.rest = true then none
  else document.post? (String.ofList line.name) (line.nameStart start) line.rest (line.restStart start)

def Construct.signpost? (document : Document) : Construct → Option Signpost
  | commandLine start line => document.signpost? start line
  | inline _ => none

namespace Text

/-- A target that is not in braces is as long as the characters of labels go. -/
theorem jumpTarget_of_plain {line : Text} (plain : line.head? ≠ some '{') :
    jumpTarget line 0 = line.takeWhile isLabel := by
  have noOpening (c : Char) (first : line.head? = some c) : [('{', '}')].find? (·.1 = c) = none := by
    have other : '{' ≠ c := fun same => plain (same ▸ first)
    simp [other]
  rw [List.head?_eq_getElem?] at noOpening
  rw [jumpTarget, tokenAt_of_run noOpening, List.drop_zero]
  split
  · rename_i empty
    exact empty.symm
  · rfl

theorem isBlank_eq_false_of_isLabel {c : Char} (ok : isLabel c = true) : isBlank c = false := by
  rw [isLabel, Bool.or_eq_true, decide_eq_true_eq] at ok
  rcases ok with word | rfl
  · by_contra blank
    rw [isWord_eq_false_of_isBlank (by simpa using blank)] at word
    cases word
  · decide

theorem not_blank_of_label {line : Text} (given : line.takeWhile isLabel ≠ []) : blank line = false := by
  cases line with
  | nil => exact absurd rfl given
  | cons c rest =>
      have first : isLabel c = true := by
        by_contra other
        exact given (List.takeWhile_cons_of_neg other)
      simp [blank, isBlank_eq_false_of_isLabel first]

/-- There is no second target without a first. -/
theorem jumpTargets_empty {line : Text} (none : (jumpTargets line).1.text = []) :
    (jumpTargets line).2.text = [] := by
  have first : jumpTarget line 0 = [] := none
  simp [jumpTargets, first]

end Text

/-- Jumps inside a file do not lead to a scene. -/
theorem not_toScene_of_inFile {command : String} (inFile : command = "goto" ∨ command = "gosub") :
    ¬ (command = "goto_scene" ∨ command = "gosub_scene") := by
  rcases inFile with rfl | rfl <;> decide

/-- Jumps inside a file have a label, jumps to a scene have a scene and after it perhaps a label, and
returns have neither. -/
inductive FlowEvent.Shaped : FlowEvent → Prop
  | back (commandLocation : Location) : Shaped { command := "return", commandLocation }
  | inFile {command : String} (jumps : command = "goto" ∨ command = "gosub")
      (commandLocation location : Location) (label : String) :
      Shaped { command, commandLocation, label, labelLocation := some location }
  | toScene {command label scene : String} {labelLocation : Option Location}
      (jumps : command = "goto_scene" ∨ command = "gosub_scene")
      (commandLocation location : Location) (labelled : labelLocation.isSome ↔ label ≠ "")
      (sceneFirst : scene = "" → label = "") :
      Shaped {
        command, commandLocation, label, scene, labelLocation
        sceneLocation := some location }

namespace FlowEvent.Shaped

variable {event : FlowEvent}

/-- A jump inside its file has the place of a label. -/
theorem label_placed (shaped : event.Shaped) (inFile : event.command = "goto" ∨ event.command = "gosub") :
    ∃ location, event.labelLocation = some location := by
  cases shaped with
  | back => simp at inFile
  | inFile _ _ location => exact ⟨location, rfl⟩
  | toScene toScene => exact absurd toScene (not_toScene_of_inFile inFile)

/-- A jump to a scene has the place of the scene, and that of its label if it has a label. -/
theorem scene_placed (shaped : event.Shaped)
    (toScene : event.command = "goto_scene" ∨ event.command = "gosub_scene") :
    (∃ location, event.sceneLocation = some location) ∧
      (event.label ≠ "" → ∃ location, event.labelLocation = some location) := by
  cases shaped with
  | back => simp at toScene
  | inFile inFile => exact absurd toScene (not_toScene_of_inFile inFile)
  | toScene _ _ location labelled =>
      exact ⟨⟨location, rfl⟩, fun given => Option.isSome_iff_exists.1 (labelled.2 given)⟩

end FlowEvent.Shaped

/-- The places of a jump: of its command, its label and its scene. -/
def FlowEvent.places (event : FlowEvent) : List Location :=
  event.commandLocation :: event.labelLocation.toList ++ event.sceneLocation.toList

/-- The places of a signpost. -/
def Signpost.places : Signpost → List Location
  | label _ location => [location]
  | jump event => event.places

/-- A location starts between two offsets of a document. -/
def Document.StartsBetween (document : Document) (first last : Nat) (location : Location) : Prop :=
  ∃ offset : Nat, first ≤ offset ∧ offset ≤ last ∧ location.range.start = document.positionAt offset

namespace Document

variable {document : Document} {command : String} {commandStart lineStart start : Nat} {line : Text}

theorem shaped_jump (jumps : command ∈ Vocabulary.flowCommands) :
    (document.jump command commandStart line lineStart).Shaped := by
  have empty : (Text.jumpTargets line).1.text = [] → (Text.jumpTargets line).2.text = [] :=
    Text.jumpTargets_empty
  unfold jump
  generalize Text.jumpTargets line = targets at empty
  obtain ⟨⟨first, start⟩, ⟨second, skipped⟩⟩ := targets
  by_cases returns : command = "return"
  · simp only [if_pos returns]
    exact returns ▸ .back _
  by_cases scene : command = "goto_scene" ∨ command = "gosub_scene"
  · simp only [if_neg returns, if_pos scene]
    refine .toScene scene _ _ ?_ fun noScene => ?_
    · by_cases unlabelled : second = [] <;> simp [unlabelled]
    · have unlabelled : second = [] := empty (by simpa using noScene)
      rw [unlabelled, String.ofList_nil]
  · simp only [if_neg returns, if_neg scene]
    have others : ∀ name ∈ Vocabulary.flowCommands, ¬ name = "return" →
        ¬ (name = "goto_scene" ∨ name = "gosub_scene") → name = "goto" ∨ name = "gosub" := by decide
    exact .inFile (others command jumps returns scene) _ _ _

/-- All places of a jump start between its name and the end of its arguments. -/
theorem places_jump {place : Location} (after : commandStart ≤ lineStart)
    (member : place ∈ (document.jump command commandStart line lineStart).places) :
    document.StartsBetween commandStart (lineStart + line.length) place := by
  have apart := Text.jumpTargets_apart line
  unfold jump at member
  generalize Text.jumpTargets line = targets at apart member
  obtain ⟨⟨first, start⟩, ⟨second, skipped⟩⟩ := targets
  simp only [Piece.stop] at apart
  have inside : ∀ (offset : Nat) (piece : Text), commandStart ≤ offset →
      offset ≤ lineStart + line.length →
      document.StartsBetween commandStart (lineStart + line.length) (document.span offset piece) :=
    fun offset _ first last => ⟨offset, first, last, rfl⟩
  have named := inside commandStart command.toList (Nat.le_refl _) (by omega)
  have firstPlaced := inside lineStart first after (Nat.le_add_right _ _)
  have secondPlaced := inside (lineStart + skipped) second (by omega) (by omega)
  by_cases returns : command = "return"
  · simp only [if_pos returns, FlowEvent.places, Option.toList_none, List.append_nil,
      List.mem_singleton] at member
    exact member ▸ named
  by_cases scene : command = "goto_scene" ∨ command = "gosub_scene"
  · simp only [if_neg returns, if_pos scene, FlowEvent.places, List.cons_append, List.mem_cons,
      List.mem_append, Option.mem_toList] at member
    obtain rfl | labelled | labelled := member
    · exact named
    · split at labelled
      · cases labelled
      · obtain rfl := Option.some.inj labelled
        exact secondPlaced
    · obtain rfl := Option.some.inj labelled
      exact firstPlaced
  · simp only [if_neg returns, if_neg scene, FlowEvent.places, List.cons_append, List.mem_cons,
      List.mem_append, Option.mem_toList] at member
    obtain rfl | labelled | labelled := member
    · exact named
    · obtain rfl := Option.some.inj labelled
      exact firstPlaced
    · cases labelled

theorem command_jump (document : Document) (command : String) (commandStart : Nat) (line : Text)
    (lineStart : Nat) : (document.jump command commandStart line lineStart).command = command := by
  unfold jump
  dsimp only
  split
  · rfl
  · split <;> rfl

theorem commandLocation_jump (document : Document) (command : String) (commandStart : Nat) (line : Text)
    (lineStart : Nat) : (document.jump command commandStart line lineStart).commandLocation =
      document.span commandStart command.toList := by
  unfold jump
  dsimp only
  split
  · rfl
  · split <;> rfl

/-- In a file a jump leads to the label that its arguments start with. -/
theorem label_jump (inFile : command = "goto" ∨ command = "gosub") (plain : line.head? ≠ some '{') :
    (document.jump command commandStart line lineStart).label =
      String.ofList (line.takeWhile Text.isLabel) := by
  have noReturn : command ≠ "return" := by rcases inFile with rfl | rfl <;> decide
  have noScene := not_toScene_of_inFile inFile
  have first : (Text.jumpTargets line).1.text = line.takeWhile Text.isLabel :=
    Text.jumpTarget_of_plain plain
  simp only [jump, if_neg noReturn, if_neg noScene, first]

theorem span_name (document : Document) (start : Nat) (line : CommandLine) :
    document.span (line.nameStart start) (String.ofList line.name).toList =
      document.nameLocation start line := by
  rw [String.toList_ofList]
  rfl

/-- A command line gives a label after its name, or its jump. -/
theorem signpost?_cases {line : CommandLine} {post : Signpost}
    (gives : document.signpost? start line = some post) :
    (∃ label, post = .label (String.ofList label) (document.span (line.restStart start) label)) ∨
      String.ofList line.name ∈ Vocabulary.flowCommands ∧
        post = .jump (document.jump (String.ofList line.name) (line.nameStart start) line.rest
          (line.restStart start)) := by
  unfold signpost? at gives
  split at gives
  · cases gives
  · unfold post? at gives
    split at gives
    · unfold label? at gives
      dsimp only at gives
      split at gives
      · cases gives
      · exact .inl ⟨_, (Option.some.inj gives).symm⟩
    · split at gives
      · rename_i jumps
        exact .inr ⟨jumps, (Option.some.inj gives).symm⟩
      · cases gives

end Document

end ChoiceScript
