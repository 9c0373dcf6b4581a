import ChoiceScript.Parser.Document
import ChoiceScript.Proofs.Parser.Command

/-! # Documents are read truthfully

What opens in prose is read from the document itself, and a command line is cut out of it with its
name and its rest. So every report on a document is truthful, whether or not reading comes to an
end; and it does come to an end wherever the address of the document can be read.
-/

namespace ChoiceScript

open Document

namespace CommandLine

theorem name_part (line : CommandLine) :
    line.name <+: line.render.drop (line.padding.length + 1) := by
  rw [render, List.append_assoc, List.append_assoc, List.drop_length_add_append]
  exact List.prefix_append _ _

theorem rest_part (line : CommandLine) :
    line.rest <+: line.render.drop
      (line.padding.length + 1 + line.name.length + line.spacing.length) := by
  have skipped : (line.padding ++ '*' :: line.name ++ line.spacing).length =
      line.padding.length + 1 + line.name.length + line.spacing.length := by
    simp only [List.length_append, List.length_cons]
    omega
  have left : line.render.drop (line.padding.length + 1 + line.name.length + line.spacing.length) =
      line.rest := by
    rw [render, ← skipped, List.drop_left]
  exact left ▸ List.prefix_refl _

end CommandLine

namespace Parser

variable {source : Source}

theorem truthful_construct {construct : Construct}
    (stands : construct.StandsIn source.document.text 0) :
    Truthful source (Parser.construct construct) := by
  cases construct with
  | inline opening =>
      refine Truthful.readDocument ?_
      exact truthful_openingWith (truthful_descent source _) source.document.copies_whole.mirrors
        (by simpa [Construct.StandsIn] using stands)
  | commandLine start line =>
      obtain ⟨skipped, rfl, part⟩ := stands
      have whole : source.document.Copies line.render skipped :=
        source.document.copies_whole.piece part (by omega)
      refine truthful_command ?_ ?_
      · rw [String.toList_ofList]
        exact whole.piece line.name_part (by omega)
      · rw [String.length_ofList]
        exact whole.piece line.rest_part (by omega)

theorem truthful_whole (source : Source) : Truthful source whole := by
  refine Truthful.readDocument ?_
  exact .forM fun construct member => truthful_construct (Construct.standsIn_of_mem_all member)

/-- Every event on a document points at its own text: the location of a command, of a symbol in any
role, and of the label and the scene of a jump holds just the name that is reported. -/
theorem reports_quote_their_names (source : Source) :
    ∀ report ∈ (whole.run source).2.reports, report.Truthful source.document := by
  obtain ⟨new, reported, truthful, -⟩ := truthful_whole source {}
  intro report member
  rw [run, reported] at member
  exact truthful report (by simpa using member)

/-- A text that changes while the game runs, with a variable in one of its options. -/
def changingText : Source :=
  ⟨⟨"file:///game/a.txt", "@\x7b(\x7bgold\x7d > 1) rich $\x7bname\x7d|poor\x7d".toList, 0⟩, "startup.txt"⟩

/-- Where the variable stands. -/
def optionVariable : Location := ⟨"file:///game/a.txt", ⟨⟨0, 22⟩, ⟨0, 26⟩, by decide⟩⟩

theorem changingText_quotes_name : changingText.document.Quotes optionVariable "name".toList := by
  have reported : .event (.symbol .reference "name" optionVariable)
      ⟨none, [.variableReference, .multireplacement]⟩ ∈ (whole.run changingText).2.reports := by
    decide +kernel
  exact reports_quote_their_names changingText _ reported

end Parser

end ChoiceScript
