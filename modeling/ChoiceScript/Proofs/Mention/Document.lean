import ChoiceScript.Proofs.Index.Entries
import ChoiceScript.Proofs.Index.Reading
import ChoiceScript.Proofs.Mention.Command

/-! # Documents mention variables from left to right, but for stat charts

Constructs at the top level stand one after another, and each mentions variables where it stands. A
stat chart is read ahead of what opens on its lines, so what it mentions may come too early, and
nothing else may. So the mentions of a document rise exactly if those of its stat charts do not come
before anything that stands at their place or further left.
-/

namespace ChoiceScript

/-- A mention stands before another if it is made by a stat chart. -/
def Mention.ChartBefore (document : Document) (first second : Mention) : Prop :=
  first.command = some "stat_chart" → first.Before document second

instance (document : Document) (first second : Mention) :
    Decidable (first.ChartBefore document second) :=
  inferInstanceAs (Decidable (_ → _))

/-- All mentions stand at or after one offset, and those outside stat charts before another one and
before all that come later. -/
structure Staged (document : Document) (lo hi : Nat) (reports : List Report) : Prop where
  after : ∀ mention ∈ mentions reports, lo ≤ mention.start document
  before : ∀ mention ∈ mentions reports, mention.command ≠ some "stat_chart" →
    mention.start document < hi
  rising : (mentions reports).Pairwise fun first second =>
    first.command ≠ some "stat_chart" → first.Before document second

namespace Staged

variable {document : Document} {command : Option String} {lo mid hi : Nat} {new added : List Report}

theorem of_silent (silent : mentions new = []) : Staged document lo hi new :=
  ⟨by simp [silent], by simp [silent], by simp [silent]⟩

theorem after_silent (silent : mentions new = []) (staged : Staged document lo hi added) :
    Staged document lo hi (new ++ added) := by
  have same : mentions (new ++ added) = mentions added := by rw [mentions_append, silent, List.nil_append]
  constructor
  · exact same ▸ staged.after
  · exact same ▸ staged.before
  · exact same ▸ staged.rising

theorem widen {lo' hi' : Nat} (staged : Staged document lo hi new) (first : lo' ≤ lo)
    (last : hi ≤ hi') : Staged document lo' hi' new := by
  constructor
  · exact fun mention member => Nat.le_trans first (staged.after mention member)
  · exact fun mention member outside =>
      Nat.lt_of_lt_of_le (staged.before mention member outside) last
  · exact staged.rising

theorem append (early : Staged document lo mid new) (late : Staged document mid hi added)
    (first : lo ≤ mid) (last : mid ≤ hi) : Staged document lo hi (new ++ added) := by
  constructor
  · intro mention member
    rw [mentions_append, List.mem_append] at member
    cases member with
    | inl present => exact early.after mention present
    | inr present => exact Nat.le_trans first (late.after mention present)
  · intro mention member outside
    rw [mentions_append, List.mem_append] at member
    cases member with
    | inl present => exact Nat.lt_of_lt_of_le (early.before mention present outside) last
    | inr present => exact late.before mention present outside
  · rw [mentions_append, List.pairwise_append]
    refine ⟨early.rising, late.rising, fun a before b later outside => ?_⟩
    exact Nat.lt_of_lt_of_le (early.before a before outside) (late.after b later)

theorem of_orderly {start stop : Int} (orderly : Orderly document command start stop new)
    (first : lo ≤ start) (last : stop ≤ hi) (inside : hi ≤ document.text.length) :
    Staged document lo hi new := by
  have placed : ∀ mention ∈ mentions new,
      start ≤ mention.start document ∧ mention.start document < stop :=
    fun mention => orderly.start_of_mem (by omega) (by omega)
  constructor
  · intro mention member
    have := placed mention member
    omega
  · intro mention member _
    have := placed mention member
    omega
  · apply (orderly.rising (by omega) (by omega)).imp
    intro _ _ before _
    exact before

/-- What a stat chart mentions need not rise. -/
theorem of_gathered {start : Int} (gathered : Gathered document (some "stat_chart") start new)
    (first : lo ≤ start) (inside : lo ≤ document.text.length) : Staged document lo hi new := by
  have inChart : ∀ mention ∈ mentions new, mention.command = some "stat_chart" :=
    fun mention member => (gathered mention member).1
  constructor
  · intro mention member
    obtain ⟨-, place, after, start⟩ := gathered mention member
    rw [Mention.start, start, Document.offsetAt_positionAt]
    simp only [Document.clamp]
    omega
  · intro mention member outside
    exact absurd (inChart mention member) outside
  · rw [List.pairwise_iff_forall_sublist]
    intro a b sublist outside
    exact absurd (inChart a (sublist.subset (by simp))) outside

end Staged

namespace Parser

variable {α : Type} {source : Source} {context : Context} {stack : List Element} {lo hi : Nat}

abbrev Stages (source : Source) (context : Context) (lo hi : Nat) (parser : Parser Unit) : Prop :=
  Adds source context True (fun _ => True) (Staged source.document lo hi) parser

abbrev Silent (source : Source) (context : Context) (parser : Parser α) : Prop :=
  Adds source context True (fun _ => True) (fun new => mentions new = []) parser

theorem Stages.after {first : Parser α} {next : α → Parser Unit} (silent : Silent source context first)
    (more : ∀ value, Stages source context lo hi (next value)) :
    Stages source context lo hi (first >>= next) :=
  Adds.bind silent (fun value _ => more value) (fun _ => .of_silent) fun _ _ => .after_silent

theorem Silent.complain {notice : Notice} {start stop : Int} {fields : Fields} :
    Silent source context (Parser.complain notice start stop fields) :=
  Adds.complain rfl (fun _ _ => rfl) (.inl trivial)

theorem Silent.locate {start stop : Int} : Silent source context (Parser.locate start stop) := by
  have located : Adds source context True
      (fun location => source.document.locationAt start stop = .ok location)
      (fun new => mentions new = []) (Parser.locate start stop) := Adds.locate rfl (.inl trivial)
  exact located.mono (fun _ _ => trivial) fun _ silent => silent

theorem Silent.stages {parser : Parser Unit} (silent : Silent source context parser) :
    Stages source context lo hi parser :=
  silent.mono (fun _ given => given) fun _ => .of_silent

/-- A command mentions variables on its own line, or it is `*stat_chart`. -/
theorem stages_arguments {name : String} {line : Text} {index : Nat} {lineIndex : Int}
    (after : (index : Int) ≤ lineIndex) (last : lineIndex + line.length ≤ hi)
    (inside : hi ≤ source.document.text.length) :
    Stages source ⟨some name, stack⟩ index hi (arguments name line index lineIndex) := by
  by_cases chart : name = "stat_chart"
  · subst chart
    exact gathers_arguments.mono (fun _ given => given) fun _ gathered =>
      .of_gathered gathered (Int.le_refl _) (by omega)
  · exact (reads_arguments chart).mono (fun _ given => given) fun _ orderly =>
      .of_orderly orderly after last inside

theorem stages_command {padding spacing line : Text} {name : String} {index : Nat}
    (inside : index + name.length + spacing.length + line.length ≤ source.document.text.length) :
    Stages source ⟨none, stack⟩ index (index + name.length + spacing.length + line.length)
      (command padding name spacing line index) := by
  apply Adds.duringCommand
  apply Stages.after Silent.locate
  intro location
  apply Stages.after (Adds.emit rfl)
  intro _
  split
  · exact Silent.complain.stages
  split
  · exact Silent.complain.stages
  have rest : Stages source ⟨some name, .command :: stack⟩ index
      (index + name.length + spacing.length + line.length)
      (arguments name line index (index + name.length + spacing.length)) :=
    stages_arguments (by omega) (by omega) inside
  split
  · apply Stages.after (Adds.isStartup rfl)
    intro startup
    split
    · exact Stages.after Silent.complain fun _ => rest
    · exact rest
  · exact rest

theorem stages_construct {construct : Construct} (stands : construct.StandsIn source.document.text 0) :
    Stages source ⟨none, stack⟩ construct.start (construct.resume source.document.text)
      (Parser.construct construct) := by
  have last := Construct.resume_le stands
  cases construct with
  | inline opening =>
      have inside : opening.contents ≤ source.document.text.length := by
        simpa [Construct.StandsIn] using stands
      apply Adds.readDocument fun _ => rfl
      apply (lays_openingWith (lays_descent _) inside (Int.le_refl _) (Int.le_refl _)).reads.mono
        fun _ given => given
      intro new orderly
      apply Staged.of_orderly orderly _ _ last
      · simp only [Construct.start, Opening.contents]
        omega
      · simp only [Construct.resume]
        omega
  | commandLine start line =>
      have length : (Construct.commandLine start line).resume source.document.text =
          start + line.padding.length + 1 + (String.ofList line.name).length + line.spacing.length
            + line.rest.length := by
        simp only [Construct.resume, CommandLine.length, String.length_ofList]
        omega
      rw [length] at last ⊢
      exact (stages_command last).mono (fun _ given => given) fun _ staged =>
        staged.widen (by simp only [Construct.start]; omega) (Nat.le_refl _)

/-- The constructs of a document are read one after another. -/
theorem stages_whole (source : Source) :
    Stages source ⟨none, []⟩ 0 source.document.text.length whole := by
  apply Adds.readDocument fun _ => rfl
  have apart := (Construct.allFrom_apart source.document.text 0).2
  have stands : ∀ construct ∈ Construct.allFrom source.document.text 0,
      construct.StandsIn source.document.text 0 := fun _ => Construct.standsIn_of_mem_all
  have start : ∀ construct ∈ Construct.allFrom source.document.text 0, 0 ≤ construct.start :=
    fun _ _ => Nat.zero_le _
  have inside := Nat.zero_le source.document.text.length
  unfold Construct.all
  generalize Construct.allFrom source.document.text 0 = constructs at *
  generalize 0 = lo at start inside ⊢
  induction constructs generalizing lo with
  | nil => exact Adds.pure trivial (.of_silent rfl)
  | cons construct rest ih =>
      obtain ⟨before, later⟩ := List.pairwise_cons.1 apart
      have here := stands construct (by simp)
      have first := start construct (by simp)
      have forward := Construct.start_le_resume source.document.text construct
      have last := Construct.resume_le here
      apply Adds.bind (stages_construct here)
      · intro _ _
        exact ih later (fun other member => stands other (by simp [member])) _ before last
      · exact fun _ staged => staged.widen first last
      · intro new added early late
        exact (early.append late forward last).widen first (Nat.le_refl _)

end Parser

/-- What a document mentions, in the order in which it is reported. -/
def Source.mentions (source : Source) : List Mention :=
  ChoiceScript.mentions (Parser.whole.run source).2.reports

/-- Outside stat charts a variable is mentioned before all that is mentioned later. -/
theorem Source.mentions_rising (source : Source) : source.mentions.Pairwise fun first second =>
    first.command ≠ some "stat_chart" → first.Before source.document second :=
  (Parser.stages_whole source).holds_run.rising

/-- The names that are told of as references are those that are mentioned. -/
theorem names_reference (reports : List Report) :
    names (· = .reference) reports =
      (mentions reports).map fun mention => (mention.name, mention.location) := by
  rw [names, mentions, List.map_filterMap]
  congr 1
  funext report
  rcases report with ⟨event, context⟩ | diagnostic
  · cases event with
    | symbol role name location => cases role <;> simp [Report.named?, Report.mention?]
    | _ => rfl
  · rfl

namespace Summary

variable {isStartup : Bool}

/-- The list of a name holds the places where it is mentioned, in the order of the reports. -/
theorem get?_references_ofReports (reports : List Report) (name : String) :
    ((ofReports isStartup reports).references.get? name).getD [] =
      ((mentions reports).filter (·.name = name)).map (·.location) := by
  have keeps := OrderedMap.keepsAll_empty.pushAll (names (· = .reference) reports)
  rw [ofReports_eq]
  refine (keeps.get? name).trans ?_
  rw [List.nil_append, names_reference, List.filter_map, List.map_map]
  rfl

end Summary

/-- Do locations start one after another in a document? -/
def Document.Rising (document : Document) (locations : List Location) : Prop :=
  locations.Pairwise fun first second =>
    document.offsetAt first.range.start < document.offsetAt second.range.start

theorem Document.Rising.nodup {document : Document} {locations : List Location}
    (rising : document.Rising locations) : locations.Nodup := by
  apply rising.imp
  intro first second before same
  exact absurd (same ▸ before) (Nat.lt_irrefl _)

/-- The list of a name in a document's index holds the places where the document mentions it. -/
theorem Document.Reads.get?_references {document : Document} {startupFile : String} {isStartup : Bool}
    {summary : Summary} {index : DocumentIndex}
    (reads : document.Reads startupFile isStartup summary index) (name : String) :
    (index.references.get? name).getD [] =
      ((Source.mentions ⟨document, startupFile⟩).filter (·.name = name)).map (·.location) := by
  obtain ⟨reports, read, rfl⟩ := reads.summed
  obtain ⟨scopes, -, -, rfl⟩ := Summary.documentIndex_eq_ok reads.indexed
  have reported : reports = (Parser.whole.run ⟨document, startupFile⟩).2.reports :=
    Source.reports_eq_ok read
  rw [Source.mentions, ← reported]
  exact Summary.get?_references_ofReports reports name

/-- How often a document mentions a name at a range. -/
def Source.timesMentioned (source : Source) (name : String) (range : Range) : Nat :=
  source.mentions.countP fun mention => mention.name = name ∧ mention.location.range = range

/-- The index of a document holds each use of a name as often as the document mentions it. -/
theorem Document.Reads.countP_references {document : Document} {startupFile : String}
    {isStartup : Bool} {summary : Summary} {index : DocumentIndex}
    (reads : document.Reads startupFile isStartup summary index) (name : String) (range : Range) :
    ((index.references.get? name).getD []).countP (·.range = range) =
      Source.timesMentioned ⟨document, startupFile⟩ name range := by
  rw [reads.get?_references name, List.countP_map, List.countP_filter, Source.timesMentioned]
  apply List.countP_congr
  intro mention _
  simp [and_comm]

namespace Source

/-- Only the mentions of stat charts can come too early. -/
theorem rising_iff (source : Source) {chosen : List Mention}
    (part : chosen.Sublist source.mentions) :
    chosen.Pairwise (Mention.Before source.document) ↔
      chosen.Pairwise (Mention.ChartBefore source.document) := by
  constructor
  · intro rising
    apply rising.imp
    intro _ _ before _
    exact before
  · intro charts
    apply (charts.and (source.mentions_rising.sublist part)).imp
    intro first second holds
    by_cases chart : first.command = some "stat_chart"
    · exact holds.1 chart
    · exact holds.2 chart

/-- The references of a document start further and further right exactly if those of its stat charts
start before all that comes later, and the same goes for the list of each name in its index, in which
then no location is found twice. -/
theorem references_rise_iff (source : Source) :
    (source.mentions.Pairwise (Mention.Before source.document) ↔
      source.mentions.Pairwise (Mention.ChartBefore source.document)) ∧
    ∀ (project : ProjectIndex) (indexed : ProjectIndex.Indexed),
      project.indexDocument source.document source.startupFile = .ok indexed →
      ∀ name locations, indexed.document.references.get? name = some locations →
        (source.document.Rising locations ∧ locations.Nodup ↔
          (source.mentions.filter (·.name = name)).Pairwise
            (Mention.ChartBefore source.document)) := by
  refine ⟨source.rising_iff (List.Sublist.refl _), ?_⟩
  intro project indexed passed name locations found
  obtain ⟨summary, reads, -⟩ := ProjectIndex.indexDocument_eq_ok passed
  have same := reads.get?_references name
  rw [found, Option.getD_some] at same
  have placed : source.document.Rising locations ↔
      (source.mentions.filter (·.name = name)).Pairwise (Mention.Before source.document) := by
    rw [Document.Rising, same, List.pairwise_map]
    rfl
  rw [← source.rising_iff List.filter_sublist, ← placed]
  exact ⟨fun both => both.1, fun rising => ⟨rising, rising.nodup⟩⟩

/-- A stat chart with nothing else on its lines. -/
def steadyChart : Source :=
  ⟨⟨"file:///game/stats.txt",
    "*stat_chart\n  text gold\n  percent luck\n$\x7bgold\x7d\n".toList, 0⟩, "startup.txt"⟩

/-- It mentions gold in two places, the one in the chart first. -/
theorem steadyChart_rises : steadyChart.mentions.Pairwise (Mention.Before steadyChart.document) ∧
    ∃ indexed locations,
      ({} : ProjectIndex).indexDocument steadyChart.document steadyChart.startupFile = .ok indexed ∧
      indexed.document.references.get? "gold" = some locations ∧ locations.length = 2 ∧
      steadyChart.document.Rising locations ∧ locations.Nodup := by
  have rising := references_rise_iff steadyChart
  refine ⟨rising.1.2 (by decide +kernel), ?_⟩
  have twice : (({} : ProjectIndex).indexDocument steadyChart.document
      steadyChart.startupFile).toOption.bind (fun indexed =>
        (indexed.document.references.get? "gold").map (·.length)) = some 2 := by decide +kernel
  cases indexing : ({} : ProjectIndex).indexDocument steadyChart.document steadyChart.startupFile with
  | error fault =>
      rw [indexing] at twice
      cases twice
  | ok indexed =>
      rw [indexing] at twice
      obtain ⟨locations, found, length⟩ := Option.map_eq_some_iff.1 twice
      refine ⟨indexed, locations, rfl, found, length, ?_⟩
      exact (rising.2 {} indexed indexing "gold" locations found).2 (by decide +kernel)

/-- A stat chart with a replacement on one of its lines. -/
def crossedChart : Source :=
  ⟨⟨"file:///game/stats.txt",
    "*stat_chart\n  text gold $\x7bgold\x7d\n  percent gold\n".toList, 0⟩, "startup.txt"⟩

/-- The chart mentions what stands below the replacement before the replacement is read. -/
theorem crossedChart_not_rising :
    ¬ crossedChart.mentions.Pairwise (Mention.Before crossedChart.document) := by
  decide +kernel

end Source

end ChoiceScript
