import Mathlib.Data.List.Forall2
import ChoiceScript.Parser.Command
import ChoiceScript.Proofs.CommandLine
import ChoiceScript.Proofs.Document.LineTable
import ChoiceScript.Proofs.Text.Lines
import ChoiceScript.Proofs.Text.Pieces

/-! # Lists of scenes

A list of scenes is as long as its lines name scenes behind one padding. Blank lines count for nothing.
-/

namespace ChoiceScript

namespace SceneEntry

/-- What may stand behind a name: padding and the end of the line. -/
def Ends (text : Text) : Prop :=
  ∃ trailing terminator, text = trailing ++ terminator ∧ (∀ c ∈ trailing, Text.isPadding c = true) ∧
    terminator ∈ [[], ['\r'], ['\n'], ['\r', '\n']]

/-- A line names a scene: behind its padding stands a marker or none, then a name without white space,
and nothing more than padding behind that. -/
structure Parts (line padding marker name : Text) : Prop where
  whole : ∃ ending, line = padding ++ (marker ++ (name ++ ending)) ∧ Ends ending
  indented : padding ≠ []
  padded : ∀ c ∈ padding, Text.isPadding c = true
  marked : marker = [] ∨ ∃ gap, marker = '$' :: gap ∧ ∀ c ∈ gap, Text.isPadding c = true
  named : name ≠ []
  solid : ∀ c ∈ name, Text.isBlank c = false

/-- The name on a line. A dollar sign in front of it is a marker unless nothing follows. -/
def Names (line padding name : Text) : Prop :=
  ∃ marker, Parts line padding marker name ∧ (marker = [] → name.head? = some '$' → name = ['$'])

/-- All lines name scenes behind one padding. -/
def Uniform (lines : List Piece) : Prop :=
  ∃ padding, ∀ line ∈ lines, ∃ marker name, Parts line.text padding marker name

/-- A text is a name with nothing more than padding behind it. -/
structure LoneName (text name : Text) : Prop where
  whole : ∃ ending, text = name ++ ending ∧ Ends ending
  named : name ≠ []
  solid : ∀ c ∈ name, Text.isBlank c = false

section Line

variable {text line padding name ending : Text}

theorem Ends.blank (ends : Ends ending) : ∀ c ∈ ending, Text.isBlank c = true := by
  obtain ⟨trailing, terminator, rfl, padded, known⟩ := ends
  intro c member
  rcases List.mem_append.1 member with early | late
  · exact Text.isBlank_of_isPadding (padded c early)
  · have blank : terminator.all Text.isBlank = true := by
      simp only [List.mem_cons, List.not_mem_nil, or_false] at known
      rcases known with rfl | rfl | rfl | rfl <;> decide
    exact List.all_eq_true.1 blank c late

theorem ends_iff : Ends ending ↔
    ending.dropWhile Text.isPadding ∈ [[], ['\r'], ['\n'], ['\r', '\n']] := by
  constructor
  · rintro ⟨trailing, terminator, rfl, padded, known⟩
    have stops : ∀ c ∈ terminator.head?, Text.isPadding c = false := by
      simp only [List.mem_cons, List.not_mem_nil, or_false] at known
      rcases known with rfl | rfl | rfl | rfl <;> simp [Text.isPadding]
    rwa [Text.dropWhile_exact padded stops]
  · intro known
    exact ⟨_, _, List.takeWhile_append_dropWhile.symm, List.all_eq_true.1 List.all_takeWhile, known⟩

theorem loneName?_eq_some_iff : loneName? text = some name ↔ LoneName text name := by
  have parts (word after : Text) (solid : ∀ c ∈ word, (!Text.isBlank c) = true)
      (stops : ∀ c ∈ after.head?, (!Text.isBlank c) = false) :
      loneName? (word ++ after) = some name ↔ (word ≠ [] ∧ Ends after) ∧ word = name := by
    simp only [loneName?, Text.takeWhile_exact solid stops, List.drop_left, ends_iff,
      Option.ite_none_right_eq_some, Bool.and_eq_true, decide_eq_true_eq, List.contains_iff_mem,
      Option.some.injEq]
  constructor
  · intro found
    obtain ⟨word, after, rfl, solid, stops⟩ := Text.exists_parts (!Text.isBlank ·) text
    obtain ⟨⟨named, ends⟩, rfl⟩ := (parts word after solid stops).1 found
    exact ⟨⟨after, rfl, ends⟩, named, by simpa using solid⟩
  · rintro ⟨⟨ending, rfl, ends⟩, named, solid⟩
    have stops : ∀ c ∈ ending.head?, (!Text.isBlank c) = false := by
      intro c first
      simp [ends.blank c (List.mem_of_mem_head? first)]
    exact (parts name ending (by simpa using solid) stops).2 ⟨⟨named, ends⟩, rfl⟩

/-- What a name is read from starts with the name, so no padding stands before it. -/
theorem LoneName.head?_solid (lone : LoneName text name) : ∀ c ∈ text.head?, Text.isBlank c = false := by
  obtain ⟨⟨ending, rfl, -⟩, named, solid⟩ := lone
  obtain ⟨first, rest, rfl⟩ := List.exists_cons_of_ne_nil named
  intro c head
  cases head
  exact solid _ List.mem_cons_self

theorem isPadding_eq_false {c : Char} (solid : Text.isBlank c = false) : Text.isPadding c = false := by
  by_contra padding
  simp [Text.isBlank_of_isPadding (by simpa using padding)] at solid

theorem markedName?_eq_some_iff : markedName? text = some name ↔
    ∃ gap rest, text = '$' :: (gap ++ rest) ∧ (∀ c ∈ gap, Text.isPadding c = true) ∧
      LoneName rest name := by
  constructor
  · intro found
    unfold markedName? at found
    split at found
    · rename_i rest
      exact ⟨_, _, by rw [List.takeWhile_append_dropWhile], List.all_eq_true.1 List.all_takeWhile,
        loneName?_eq_some_iff.1 found⟩
    · cases found
  · rintro ⟨gap, rest, rfl, padded, lone⟩
    rw [markedName?, Text.dropWhile_exact padded fun c first => isPadding_eq_false (lone.head?_solid c first)]
    exact loneName?_eq_some_iff.2 lone

/-- A name of more than a dollar sign that starts with one is read without it. -/
theorem LoneName.tail {rest : Text} (lone : LoneName text ('$' :: rest)) (more : rest ≠ []) :
    ∃ after, text = '$' :: after ∧ LoneName after rest := by
  obtain ⟨⟨ending, rfl, ends⟩, -, solid⟩ := lone
  exact ⟨_, rfl, ⟨ending, rfl, ends⟩, more, fun c member => solid c (List.mem_cons_of_mem _ member)⟩

/-- Behind the padding of a line stands its name, after a marker where there could be one. -/
theorem contents_eq_some_iff : (markedName? text).or (loneName? text) = some name ↔
    (∃ gap rest, text = '$' :: (gap ++ rest) ∧ (∀ c ∈ gap, Text.isPadding c = true) ∧ LoneName rest name) ∨
      LoneName text name ∧ (name.head? = some '$' → name = ['$']) := by
  rw [Option.or_eq_some_iff, markedName?_eq_some_iff, loneName?_eq_some_iff]
  apply or_congr Iff.rfl
  rw [and_comm]
  refine and_congr_right fun lone => ⟨fun unmarked dollar => ?_, fun bare => ?_⟩
  · obtain ⟨first, rest, rfl⟩ := List.exists_cons_of_ne_nil lone.named
    cases dollar
    by_contra more
    obtain ⟨after, rfl, tail⟩ := lone.tail fun none => more (by rw [none])
    have marked : markedName? ('$' :: after) = some rest :=
      markedName?_eq_some_iff.2 ⟨[], after, rfl, by simp, tail⟩
    rw [unmarked] at marked
    cases marked
  · by_contra marked
    obtain ⟨other, marked⟩ := Option.ne_none_iff_exists'.1 marked
    obtain ⟨gap, rest, rfl, -, named⟩ := markedName?_eq_some_iff.1 marked
    obtain ⟨⟨ending, same, ends⟩, present, -⟩ := lone
    obtain ⟨first, more, rfl⟩ := List.exists_cons_of_ne_nil present
    obtain ⟨rfl, behind⟩ := List.cons.inj same
    obtain ⟨-, rfl⟩ := List.cons.inj (bare rfl)
    -- What follows a lone dollar sign is blank, so no name stands there.
    obtain ⟨⟨after, rfl, -⟩, present, solid⟩ := named
    obtain ⟨c, more, rfl⟩ := List.exists_cons_of_ne_nil present
    have blank := ends.blank c (show c ∈ [].append ending by rw [← behind]; simp)
    rw [solid c List.mem_cons_self] at blank
    cases blank

/-- The padding of a line that names a scene is all the padding that it starts with. -/
theorem Parts.padding_eq {marker : Text} (parts : Parts line padding marker name) :
    padding = line.takeWhile Text.isPadding := by
  obtain ⟨⟨ending, rfl, -⟩, -, padded, marked, named, solid⟩ := parts
  refine (Text.takeWhile_exact padded fun c first => ?_).symm
  rcases marked with rfl | ⟨gap, rfl, -⟩
  · obtain ⟨d, rest, rfl⟩ := List.exists_cons_of_ne_nil named
    cases first
    exact isPadding_eq_false (solid _ List.mem_cons_self)
  · cases first
    decide

/-- A name is read off just the lines that name a scene. -/
theorem ofLine?_eq_some_iff {entry : SceneEntry} :
    ofLine? line = some entry ↔ Names line entry.padding entry.name := by
  constructor
  · intro found
    obtain ⟨padding, contents, rfl, padded, stops⟩ := Text.exists_parts Text.isPadding line
    simp only [ofLine?, Text.takeWhile_exact padded stops, Text.dropWhile_exact padded stops] at found
    split at found
    · cases found
    rename_i indented
    obtain ⟨name, read, rfl⟩ := Option.map_eq_some_iff.1 found
    rcases contents_eq_some_iff.1 read with ⟨gap, rest, rfl, gapped, lone⟩ | ⟨lone, bare⟩
    · obtain ⟨⟨ending, rfl, ends⟩, named, solid⟩ := lone
      exact ⟨'$' :: gap, ⟨⟨ending, by simp, ends⟩, indented, padded, .inr ⟨gap, rfl, gapped⟩, named, solid⟩,
        nofun⟩
    · obtain ⟨⟨ending, rfl, ends⟩, named, solid⟩ := lone
      exact ⟨[], ⟨⟨ending, by simp, ends⟩, indented, padded, .inl rfl, named, solid⟩, fun _ => bare⟩
  · rintro ⟨marker, parts, bare⟩
    have padding := parts.padding_eq
    obtain ⟨⟨ending, whole, ends⟩, indented, -, marked, named, solid⟩ := parts
    have contents : line.dropWhile Text.isPadding = marker ++ (entry.name ++ ending) := by
      rw [← List.append_cancel_left_eq entry.padding, ← whole, padding, List.takeWhile_append_dropWhile]
    have lone : LoneName (entry.name ++ ending) entry.name := ⟨⟨ending, rfl, ends⟩, named, solid⟩
    have read : (markedName? (marker ++ (entry.name ++ ending))).or
        (loneName? (marker ++ (entry.name ++ ending))) = some entry.name := by
      rw [contents_eq_some_iff]
      rcases marked with rfl | ⟨gap, rfl, gapped⟩
      · exact .inr ⟨lone, bare rfl⟩
      · exact .inl ⟨gap, _, by simp, gapped, lone⟩
    simp only [ofLine?, contents, ← padding, indented, if_false, read, Option.map_some]

/-- A line that can be parted as a line with a scene has a name. -/
theorem Parts.exists_names {marker : Text} (parts : Parts line padding marker name) :
    ∃ name, Names line padding name := by
  by_cases dollar : marker = [] ∧ name.head? = some '$' ∧ name ≠ ['$']
  · obtain ⟨rfl, first, more⟩ := dollar
    obtain ⟨⟨ending, rfl, ends⟩, indented, padded, -, named, solid⟩ := parts
    obtain ⟨c, rest, rfl⟩ := List.exists_cons_of_ne_nil named
    cases first
    refine ⟨rest, ['$'], ⟨⟨ending, by simp, ends⟩, indented, padded, .inr ⟨[], rfl, by simp⟩, ?_,
      fun c member => solid c (List.mem_cons_of_mem _ member)⟩, nofun⟩
    exact fun none => more (by rw [none])
  · refine ⟨name, marker, parts, fun unmarked first => ?_⟩
    by_contra more
    exact dollar ⟨unmarked, first, more⟩

end Line

/-- Lines with the names on them, behind one padding. -/
def Named (padding : Text) (taken : List (Piece × Text)) : Prop :=
  ∀ entry ∈ taken, Names entry.1.text padding entry.2

theorem ofLine?_eq_none {line : Text} (unread : ofLine? line = none) (padding name : Text) :
    ¬ Names line padding name := by
  intro names
  have read : ofLine? line = some ⟨padding, name⟩ := ofLine?_eq_some_iff.2 names
  rw [unread] at read
  cases read

/-- Behind a given padding, the names on the first lines that have one are accepted. -/
theorem accept_some (padding : Text) (lines : List Piece) : ∃ taken rest,
    lines = taken.map (·.1) ++ rest ∧ Named padding taken ∧
    accept (some padding) lines = taken.map (fun entry => (entry.2, entry.1.stop)) ∧
    ∀ line ∈ rest.head?, ∀ name, ¬ Names line.text padding name := by
  induction lines with
  | nil => exact ⟨[], [], rfl, nofun, rfl, by simp⟩
  | cons line lines ih =>
      rw [accept]
      cases read : ofLine? line.text with
      | none =>
          refine ⟨[], line :: lines, rfl, nofun, rfl, ?_⟩
          rintro _ ⟨⟩
          exact ofLine?_eq_none read padding
      | some entry =>
          by_cases same : padding = entry.padding
          · subst same
            obtain ⟨taken, rest, rfl, named, accepted, ends⟩ := ih
            refine ⟨(line, entry.name) :: taken, rest, rfl, ?_, by simp [accepted], ends⟩
            exact List.forall_mem_cons.2 ⟨ofLine?_eq_some_iff.1 read, named⟩
          · refine ⟨[], line :: lines, rfl, nofun, by simp [same], ?_⟩
            rintro _ ⟨⟩ name other
            have also : ofLine? line.text = some ⟨padding, name⟩ := ofLine?_eq_some_iff.2 other
            rw [read] at also
            cases also
            exact same rfl

/-- The first line with a name fixes the padding of a list. -/
theorem accept_none (lines : List Piece) : ∃ padding taken rest,
    lines = taken.map (·.1) ++ rest ∧ Named padding taken ∧
    accept none lines = taken.map (fun entry => (entry.2, entry.1.stop)) ∧
    ∀ line ∈ rest.head?, ∀ other name, Names line.text other name → taken ≠ [] ∧ other ≠ padding := by
  cases lines with
  | nil => exact ⟨[], [], [], rfl, nofun, rfl, by simp⟩
  | cons line lines =>
      rw [accept]
      cases read : ofLine? line.text with
      | none =>
          refine ⟨[], [], line :: lines, rfl, nofun, rfl, ?_⟩
          rintro _ ⟨⟩ padding name names
          exact (ofLine?_eq_none read padding name names).elim
      | some entry =>
          obtain ⟨taken, rest, rfl, named, accepted, ends⟩ := accept_some entry.padding lines
          refine ⟨entry.padding, (line, entry.name) :: taken, rest, rfl, ?_, by simp [accepted], ?_⟩
          · exact List.forall_mem_cons.2 ⟨ofLine?_eq_some_iff.1 read, named⟩
          · rintro next first _ name names
            refine ⟨List.cons_ne_nil _ _, ?_⟩
            rintro rfl
            exact ends next first name names

/-- As many lines are accepted as name scenes behind one padding. -/
theorem accept_longest (lines : List Piece) : ∃ taken : List (Piece × Text),
    IsLongestPrefix Uniform (taken.map (·.1)) lines ∧
    (∀ entry ∈ taken, ∃ padding, Names entry.1.text padding entry.2) ∧
    accept none lines = taken.map (fun entry => (entry.2, entry.1.stop)) := by
  obtain ⟨padding, taken, rest, rfl, named, accepted, ends⟩ := accept_none lines
  refine ⟨taken, ⟨List.prefix_append _ _, ⟨padding, fun line member => ?_⟩, fun other begins uniform => ?_⟩,
    fun entry member => ⟨padding, named entry member⟩, accepted⟩
  · obtain ⟨entry, inside, rfl⟩ := List.mem_map.1 member
    obtain ⟨marker, parts, -⟩ := named entry inside
    exact ⟨marker, entry.2, parts⟩
  · rcases List.prefix_or_prefix_of_prefix begins (List.prefix_append _ rest) with inside | ⟨more, rfl⟩
    · exact inside
    cases more with
    | nil => simp
    | cons next more =>
        -- One line more is padded as the first, and the list went on.
        obtain ⟨common, uniform⟩ := uniform
        have first : next ∈ rest.head? := by
          obtain ⟨after, same⟩ := (List.prefix_append_right_inj _).1 begins
          simp [← same]
        obtain ⟨marker, name, parts⟩ := uniform next (by simp)
        obtain ⟨name, names⟩ := parts.exists_names
        obtain ⟨some, differs⟩ := ends next first common name names
        obtain ⟨entry, before, rfl⟩ := List.exists_cons_of_ne_nil some
        obtain ⟨_, _, here⟩ := uniform entry.1 (by simp)
        obtain ⟨_, there, -⟩ := named entry List.mem_cons_self
        exact (differs (here.padding_eq.trans there.padding_eq.symm)).elim

end SceneEntry

namespace Parser

/-- A list of scenes takes the most lines that name scenes behind one padding, blank lines left out. It
reports their names in one event that goes on to where the last of them stops, and nothing else. -/
theorem sceneList_takes_longest (source : Source) (progress : Progress) (start : Nat) :
    ∃ (lines : List Piece) (taken : List (Piece × Text)),
      Text.ReadsLines source.document.text start lines ∧
      IsLongestPrefix SceneEntry.Uniform (taken.map (·.1))
        (lines.filter fun line => !Text.blank line.text) ∧
      (∀ entry ∈ taken, ∃ padding, SceneEntry.Names entry.1.text padding entry.2) ∧
      (taken = [] → sceneList start source progress = (.ok (), progress)) ∧
      ∀ last ∈ taken.getLast?, ∃ location,
        source.document.locationAt start last.1.stop = .ok location ∧
        sceneList start source progress = (.ok (), { progress with
          reports := progress.reports ++
            [.event (.scenes (taken.map fun entry => String.ofList entry.2) location)
              ⟨progress.command, progress.stack⟩] }) := by
  obtain ⟨taken, longest, named, accepted⟩ := SceneEntry.accept_longest
    ((source.document.text.linesFrom start).filter fun line => !Text.blank line.text)
  have entries : source.document.text.sceneNames start = taken.map fun entry => (entry.2, entry.1.stop) :=
    accepted
  refine ⟨_, taken, Text.readsLines_linesFrom _ start, longest, named, ?_, fun last final => ?_⟩
  · rintro rfl
    simp only [sceneList, Bind.bind, document, entries, List.map_nil, List.getLast?_nil, Pure.pure]
  · have final : (taken.map fun entry => (entry.2, entry.1.stop)).getLast? = some (last.2, last.1.stop) := by
      rw [List.getLast?_map, Option.mem_def.1 final, Option.map_some]
    have forward := Text.le_of_mem_sceneNames (entries ▸ List.mem_of_getLast? final)
    obtain ⟨location, located⟩ : ∃ location, source.document.locationAt start last.1.stop = .ok location :=
      ⟨_, Document.locationAt_eq (by exact_mod_cast forward)⟩
    refine ⟨location, located, ?_⟩
    simp only [sceneList, Bind.bind, document, entries, final, locate, located, emit, report, List.map_map,
      Function.comp_def]

end Parser

end ChoiceScript
