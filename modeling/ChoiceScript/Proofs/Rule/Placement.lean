import ChoiceScript.Proofs.Document.LineTable
import ChoiceScript.Proofs.Outcome
import ChoiceScript.Proofs.Rule.LineCommand
import ChoiceScript.Rule.Style
import ChoiceScript.Text.Character

/-! # The commands that the rule on placement finds

From where it is, the search goes to the last starred word that a run of solid characters and the padding
behind it lead to, and it goes on behind that word. So it passes over a word from which such a run leads to
another, unless padding sets that word apart from the run before it, and over a word that stands right
behind one that it has found.
-/

namespace ChoiceScript

namespace Text

/-- What stands in a text from one offset up to another passes a test. -/
def Fills (test : Char → Bool) (text : Text) (start stop : Nat) : Prop :=
  ∀ c ∈ (text.take stop).drop start, test c = true

instance (test : Char → Bool) (text : Text) (start stop : Nat) : Decidable (Fills test text start stop) :=
  inferInstanceAs (Decidable (∀ c ∈ (text.take stop).drop start, test c = true))

def isSolid (c : Char) : Bool := !isBlank c

variable {test : Char → Bool} {text : Text} {start middle stop : Nat} {c : Char}

theorem fills_iff : Fills test text start stop ↔
    ∀ i c, start ≤ i → i < stop → text[i]? = some c → test c = true := by
  simp only [Fills, List.mem_iff_getElem?, List.getElem?_drop, forall_exists_index]
  constructor
  · intro fills i c behind ahead here
    refine fills c (i - start) ?_
    rw [Nat.add_sub_cancel' behind, List.getElem?_take_of_lt ahead, here]
  · intro fills c offset there
    have ahead : start + offset < stop := by
      by_contra far
      rw [List.getElem?_take_eq_none (Nat.le_of_not_lt far)] at there
      cases there
    rw [List.getElem?_take_of_lt ahead] at there
    exact fills _ c (Nat.le_add_right _ _) ahead there

theorem Fills.at_ (fills : Fills test text start stop) {i : Nat} (behind : start ≤ i) (ahead : i < stop)
    (here : text[i]? = some c) : test c = true :=
  fills_iff.1 fills i c behind ahead here

theorem Fills.part {i j : Nat} (fills : Fills test text start stop) (behind : start ≤ i)
    (ahead : j ≤ stop) : Fills test text i j :=
  fills_iff.2 fun _ _ after before here => fills.at_ (by omega) (by omega) here

theorem Fills.append (fills : Fills test text start middle) (more : Fills test text middle stop) :
    Fills test text start stop := by
  refine fills_iff.2 fun i c behind ahead here => ?_
  by_cases before : i < middle
  · exact fills.at_ behind before here
  · exact more.at_ (by omega) ahead here

theorem fills_of_le (le : stop ≤ start) : Fills test text start stop :=
  fills_iff.2 fun _ _ behind ahead _ => by omega

theorem Fills.cons (here : text[start]? = some c) (passes : test c = true)
    (fills : Fills test text (start + 1) stop) : Fills test text start stop := by
  refine fills_iff.2 fun i d behind ahead there => ?_
  by_cases first : i = start
  · obtain rfl := Option.some.inj (here.symm.trans (first ▸ there))
    exact passes
  · exact fills.at_ (by omega) ahead there

/-- What passes a test goes no further than to a character that fails it. -/
theorem Fills.le_of_fails (fills : Fills test text start stop) (behind : start ≤ middle)
    (here : text[middle]? = some c) (fails : test c = false) : stop ≤ middle := by
  by_contra far
  rw [fills.at_ behind (by omega) here] at fails
  cases fails

theorem fills_takeWhile (test : Char → Bool) (text : Text) (start : Nat) :
    Fills test text start (start + ((text.drop start).takeWhile test).length) := by
  refine fills_iff.2 fun i c behind ahead here => ?_
  have part := List.prefix_iff_eq_take.1 (List.takeWhile_prefix test (l := text.drop start))
  have passes : ∀ d ∈ (text.drop start).takeWhile test, test d = true :=
    List.all_eq_true.1 List.all_takeWhile
  have member : ((text.drop start).takeWhile test)[i - start]? = some c := by
    rw [part, List.getElem?_take_of_lt (by omega), List.getElem?_drop, Nat.add_sub_cancel' behind, here]
  exact passes c (List.mem_of_getElem? member)

theorem fails_behind_takeWhile
    (here : text[start + ((text.drop start).takeWhile test).length]? = some c) : test c = false := by
  rw [← List.getElem?_drop] at here
  exact not_of_getElem?_takeWhile here

/-- The longest part of a text from one offset on that passes a test. -/
structure IsSpan (test : Char → Bool) (text : Text) (start stop : Nat) : Prop where
  le : start ≤ stop
  fills : Fills test text start stop
  ends : ∀ d, text[stop]? = some d → test d = false

theorem isSpan_takeWhile (test : Char → Bool) (text : Text) (start : Nat) :
    IsSpan test text start (start + ((text.drop start).takeWhile test).length) :=
  ⟨Nat.le_add_right _ _, fills_takeWhile test text start, fun _ => fails_behind_takeWhile⟩

theorem IsSpan.lt (span : IsSpan test text start stop) (here : text[start]? = some c)
    (passes : test c = true) : start < stop := by
  refine Nat.lt_of_le_of_ne span.le fun same => ?_
  rw [span.ends c (same ▸ here)] at passes
  cases passes

/-- Nothing inside the text that passes the test goes further than the longest part. -/
theorem IsSpan.le_of_fills (span : IsSpan test text start stop) {far : Nat}
    (fills : Fills test text middle far) (behind : middle ≤ stop) (inside : far ≤ text.length) :
    far ≤ stop := by
  by_contra further
  have here := List.getElem?_eq_getElem (show stop < text.length by omega)
  exact further (fills.le_of_fails behind here (span.ends _ here))

theorem drop_eq_cons_iff {rest : Text} :
    text.drop start = c :: rest ↔ text[start]? = some c ∧ text.drop (start + 1) = rest := by
  have first : text[start]? = (text.drop start).head? := by simp
  have behind : text.drop (start + 1) = (text.drop start).tail := by simp
  rw [first, behind]
  cases text.drop start <;> simp

/-- A run of solid characters and the padding behind it lead from one offset to another. -/
def Leads (text : Text) (start stop : Nat) : Prop :=
  ∃ runStop, start < runStop ∧ runStop ≤ stop ∧ Fills isSolid text start runStop ∧
    Fills isPadding text runStop stop

theorem isSolid_of_isPadding (padding : isPadding c = true) : isSolid c = false := by
  simp [isSolid, isBlank_of_isPadding padding]

theorem isPadding_of_isSolid (solid : isSolid c = true) : isPadding c = false := by
  cases padding : isPadding c with
  | false => rfl
  | true => simp [isSolid_of_isPadding padding] at solid

theorem Leads.of_solid (solid : Fills isSolid text start middle) (le : start ≤ middle)
    (leads : Leads text middle stop) : Leads text start stop := by
  obtain ⟨runStop, after, before, run, padding⟩ := leads
  exact ⟨runStop, by omega, before, solid.append run, padding⟩

/-- A run and the padding behind it lead to a solid character where it stands in the run, or where it ends
the padding. -/
theorem leads_iff {runStop gapStop : Nat} (run : IsSpan isSolid text start runStop)
    (gap : IsSpan isPadding text runStop gapStop) (nonempty : start < runStop)
    (here : text[stop]? = some c) (solid : isSolid c = true) :
    Leads text start stop ↔ stop = gapStop ∨ start + 1 ≤ stop ∧ Fills isSolid text (start + 1) stop := by
  have inside := (List.getElem?_eq_some_iff.1 here).1
  constructor
  · rintro ⟨last, behind, ahead, fills, padding⟩
    by_cases bare : last = stop
    · exact .inr ⟨by omega, bare ▸ fills.part (Nat.le_succ _) (Nat.le_refl _)⟩
    · -- padding stands where the run ends, so it is the whole run that leads to the character
      have there := List.getElem?_eq_getElem (show last < text.length by omega)
      have padded : isPadding text[last] = true := padding.at_ (Nat.le_refl _) (by omega) there
      have blank : isSolid text[last] = false := isSolid_of_isPadding padded
      have whole : runStop = last :=
        Nat.le_antisymm (run.fills.le_of_fails (by omega) there blank)
          (run.le_of_fills fills (by omega) (by omega))
      subst whole
      have near : gapStop ≤ stop := gap.fills.le_of_fails (by omega) here (isPadding_of_isSolid solid)
      exact .inl (Nat.le_antisymm (gap.le_of_fills padding gap.le (by omega)) near)
  · rintro (rfl | ⟨behind, fills⟩)
    · exact ⟨runStop, nonempty, gap.le, run.fills, gap.fills⟩
    · have first : Fills isSolid text start (start + 1) := run.fills.part (Nat.le_refl _) nonempty
      exact ⟨stop, behind, Nat.le_refl _, first.append fills, fills_of_le (Nat.le_refl _)⟩

end Text

namespace InnerCommand

open Text

theorem star_le_stop (command : InnerCommand) : command.star ≤ command.stop :=
  Nat.le_add_right_of_le (Nat.le_succ _)

/-- A star and the longest word behind it stand in a text. -/
structure StandsIn (command : InnerCommand) (text : Text) : Prop where
  star : text[command.star]? = some '*'
  name : command.name = (text.drop (command.star + 1)).takeWhile isWord
  named : command.name ≠ []

/-- Padding apart, a solid character stands before the star on its line. -/
def IsMisplaced (command : InnerCommand) (text : Text) : Prop :=
  command.StandsIn text ∧ ∃ i c, i < command.star ∧ text[i]? = some c ∧ isSolid c = true ∧
    Fills isPadding text (i + 1) command.star

/-- Padding stands right before the star. -/
def IsSpaced (command : InnerCommand) (text : Text) : Prop :=
  ∃ i c, i + 1 = command.star ∧ text[i]? = some c ∧ isPadding c = true

/-- At most padding stands between a command and one behind it. -/
def Adjoins (text : Text) (earlier later : InnerCommand) : Prop :=
  earlier.stop ≤ later.star ∧ Fills isPadding text earlier.stop later.star

variable {command other : InnerCommand} {text : Text} {offset start stop : Nat} {c : Char}

theorem StandsIn.eq_of_star (stands : command.StandsIn text) (also : other.StandsIn text)
    (same : command.star = other.star) : command = other := by
  obtain ⟨star, name⟩ := command
  obtain ⟨otherStar, otherName⟩ := other
  obtain rfl : star = otherStar := same
  rw [InnerCommand.mk.injEq]
  exact ⟨rfl, stands.name.trans also.name.symm⟩

theorem starredWord?_eq_some_iff {name : Text} :
    starredWord? (text.drop start) = some name ↔ StandsIn ⟨start, name⟩ text := by
  constructor
  · intro found
    unfold starredWord? at found
    split at found
    · rename_i rest split
      obtain ⟨star, behind⟩ := drop_eq_cons_iff.1 split
      split at found
      · cases found
      · rename_i word _ given
        obtain rfl := Option.some.inj found
        exact ⟨star, by rw [behind], given⟩
    · cases found
  · rintro ⟨star, word, named⟩
    dsimp only at star word named
    rw [drop_eq_cons_iff.2 ⟨star, rfl⟩, starredWord?, ← word]
    cases name with
    | nil => exact absurd rfl named
    | cons c others => rfl

/-- No star stands in the word of another. -/
theorem StandsIn.stop_le (stands : command.StandsIn text) (also : other.StandsIn text)
    (behind : command.star < other.star) : command.stop ≤ other.star := by
  have word := fills_takeWhile isWord text (command.star + 1)
  rw [← stands.name] at word
  exact word.le_of_fails behind also.star (by decide)

theorem StandsIn.misplaced_iff (stands : command.StandsIn text) :
    command.IsMisplaced text ↔ ∃ start, Leads text start command.star := by
  constructor
  · rintro ⟨-, i, c, ahead, here, solid, padding⟩
    refine ⟨i, i + 1, by omega, ahead, fills_iff.2 fun j d behind before there => ?_, padding⟩
    obtain rfl : j = i := by omega
    obtain rfl := Option.some.inj (here.symm.trans there)
    exact solid
  · rintro ⟨start, runStop, after, before, run, padding⟩
    have inside : runStop - 1 < text.length := by
      have := (List.getElem?_eq_some_iff.1 stands.star).1
      omega
    have here := List.getElem?_eq_getElem inside
    refine ⟨stands, runStop - 1, _, by omega, here, run.at_ (by omega) (by omega) here, ?_⟩
    rwa [Nat.sub_add_cancel (by omega)]

/-- An option is the last of the commands in a text whose stars are reached. -/
def IsLast (text : Text) (reached : Nat → Prop) : Option InnerCommand → Prop
  | some command => command.StandsIn text ∧ reached command.star ∧
      ∀ other : InnerCommand, other.StandsIn text → reached other.star → other.star ≤ command.star
  | none => ∀ other : InnerCommand, other.StandsIn text → ¬ reached other.star

section IsLast

variable {reached further : Nat → Prop} {found : Option InnerCommand}

theorem IsLast.congr (last : IsLast text reached found)
    (same : ∀ other : InnerCommand, other.StandsIn text → (reached other.star ↔ further other.star)) :
    IsLast text further found := by
  cases found with
  | none => exact fun other stands there => last other stands ((same other stands).2 there)
  | some command =>
      obtain ⟨stands, here, greatest⟩ := last
      exact ⟨stands, (same command stands).1 here,
        fun other also there => greatest other also ((same other also).2 there)⟩

/-- Commands further on are looked for first. -/
theorem IsLast.or {behind : Option InnerCommand} (late : IsLast text further behind)
    (last : IsLast text reached found)
    (apart : ∀ one : InnerCommand, one.StandsIn text → reached one.star → ∀ i, further i → one.star ≤ i) :
    IsLast text (fun i => further i ∨ reached i) (behind.or found) := by
  cases behind with
  | some command =>
      obtain ⟨stands, here, greatest⟩ := late
      exact ⟨stands, .inl here, fun other also there =>
        there.elim (greatest other also) fun before => apart other also before _ here⟩
  | none =>
      refine last.congr fun other stands => ⟨.inr, fun there => there.resolve_left ?_⟩
      exact late other stands

theorem isLast_starredWord? (text : Text) (start : Nat) :
    IsLast text (· = start) ((starredWord? (text.drop start)).map (⟨start, ·⟩)) := by
  cases found : starredWord? (text.drop start) with
  | some name =>
      exact ⟨starredWord?_eq_some_iff.1 found, rfl, fun other _ same => Nat.le_of_eq same⟩
  | none =>
      rintro ⟨star, name⟩ stands rfl
      rw [starredWord?_eq_some_iff.2 stands] at found
      cases found

/-- The last starred word in a run is the last that solid characters lead to. -/
theorem isLast_lastInRun (text : Text) (start : Nat) :
    IsLast text (fun i => start ≤ i ∧ Fills isSolid text start i)
      (lastInRun start (text.drop start)) := by
  generalize rest : text.drop start = run
  induction run generalizing start with
  | nil =>
      rintro other stands ⟨behind, -⟩
      have inside := (List.getElem?_eq_some_iff.1 stands.star).1
      have outside := List.drop_eq_nil_iff.1 rest
      omega
  | cons c run ih =>
      obtain ⟨here, further⟩ := drop_eq_cons_iff.1 rest
      unfold lastInRun
      split
      · rename_i blank
        rintro other stands ⟨behind, solid⟩
        by_cases first : other.star = start
        · obtain rfl : '*' = c := Option.some.inj (stands.star.symm.trans (first ▸ here))
          exact absurd blank (by decide)
        · have := solid.at_ (Nat.le_refl start) (by omega) here
          simp [isSolid, blank] at this
      · rename_i solid
        have apart (one : InnerCommand) (_ : one.StandsIn text) (first : one.star = start) (i : Nat)
            (behind : start + 1 ≤ i ∧ Fills isSolid text (start + 1) i) : one.star ≤ i := by
          omega
        rw [← rest]
        refine ((ih (start + 1) further).or (isLast_starredWord? text start) apart).congr
          fun other stands => ?_
        constructor
        · rintro (⟨behind, fills⟩ | same)
          · exact ⟨by omega, fills.cons here (by simpa [isSolid] using solid)⟩
          · exact ⟨Nat.le_of_eq same.symm, fills_of_le (Nat.le_of_eq same)⟩
        · rintro ⟨behind, fills⟩
          by_cases first : other.star = start
          · exact .inr first
          · exact .inl ⟨by omega, fills.part (by omega) (Nat.le_refl _)⟩

end IsLast

theorem exists_afterRun_eq (text : Text) (offset : Nat) :
    ∃ runStop start, IsSpan isSolid text offset runStop ∧ IsSpan isPadding text runStop start ∧
      afterRun offset (text.drop offset) = (starredWord? (text.drop start)).map (⟨start, ·⟩) := by
  refine ⟨_, _, isSpan_takeWhile isSolid text offset, isSpan_takeWhile isPadding text _, ?_⟩
  have solids : (text.drop offset).takeWhile (!isBlank ·) = (text.drop offset).takeWhile isSolid := rfl
  rw [afterRun, solids]
  simp only [List.drop_drop, Nat.add_assoc]

/-- The search of a run looks for the last starred word that the run and the padding behind it lead to. -/
theorem isLast_ofRun {rest : Text} (split : text.drop offset = c :: rest) (solid : isBlank c = false) :
    IsLast text (Leads text offset) (ofRun offset c rest) := by
  obtain ⟨here, further⟩ := drop_eq_cons_iff.1 split
  obtain ⟨runStop, start, run, gap, after⟩ := exists_afterRun_eq text offset
  have nonempty : offset < runStop := run.lt here (by simp [isSolid, solid])
  have apart (one : InnerCommand) (stands : one.StandsIn text)
      (reached : offset + 1 ≤ one.star ∧ Fills isSolid text (offset + 1) one.star) (i : Nat)
      (behind : i = start) : one.star ≤ i := by
    have inside := (List.getElem?_eq_some_iff.1 stands.star).1
    have inRun := run.le_of_fills reached.2 nonempty (Nat.le_of_lt inside)
    exact behind ▸ Nat.le_trans inRun gap.le
  unfold ofRun
  rw [← split, after, ← further]
  exact ((isLast_starredWord? text start).or (isLast_lastInRun text (offset + 1)) apart).congr
    fun other stands => (leads_iff run gap nonempty stands.star (by decide)).symm

/-- Where a search from an offset goes: solid characters from there on lead to the command. -/
def IsAhead (text : Text) (offset : Nat) (command : InnerCommand) : Prop :=
  ∃ start, offset ≤ start ∧ Leads text start command.star

/-- A run leads to a command and to none behind it, unless padding parts the run from the command. -/
def EndsRun (text : Text) (command : InnerCommand) : Prop :=
  command.IsSpaced text ∨ ∀ later : InnerCommand, later.StandsIn text → ¬ Leads text command.star later.star

theorem IsAhead.lt (ahead : command.IsAhead text offset) : offset < command.star := by
  obtain ⟨start, le, runStop, after, before, -, -⟩ := ahead
  omega

theorem IsAhead.mono (ahead : command.IsAhead text stop) (le : offset ≤ stop) :
    command.IsAhead text offset := by
  obtain ⟨start, behind, leads⟩ := ahead
  exact ⟨start, by omega, leads⟩

/-- Nothing that is not solid leads anywhere. -/
theorem IsAhead.skip (ahead : command.IsAhead text offset) (here : text[offset]? = some c)
    (blank : isSolid c = false) : command.IsAhead text (offset + 1) := by
  obtain ⟨start, le, leads⟩ := ahead
  by_cases first : start = offset
  · obtain ⟨runStop, after, -, run, -⟩ := leads
    rw [run.at_ (Nat.le_refl _) after (first ▸ here)] at blank
    cases blank
  · exact ⟨start, by omega, leads⟩

/-- A solid part leads where its end leads, so it is passed over with nothing missed where it leads to no
command. -/
theorem IsAhead.pass (ahead : command.IsAhead text offset) (solid : Fills isSolid text offset stop)
    (none : ¬ Leads text offset command.star) : command.IsAhead text stop := by
  obtain ⟨start, le, leads⟩ := ahead
  by_cases inside : start < stop
  · exact absurd (leads.of_solid (solid.part (Nat.le_refl _) (Nat.le_of_lt inside)) le) none
  · exact ⟨start, by omega, leads⟩

section Taken

variable {first : InnerCommand}

theorem IsLast.lt (last : IsLast text (Leads text offset) (some first)) : offset < first.star :=
  IsAhead.lt ⟨offset, Nat.le_refl _, last.2.1⟩

/-- The last command that a run leads to ends the run. -/
theorem endsRun_of_isLast (last : IsLast text (Leads text offset) (some first)) :
    first.EndsRun text := by
  obtain ⟨stands, ⟨runStop, after, before, run, padding⟩, greatest⟩ := last
  by_cases bare : runStop = first.star
  · refine .inr fun later also leads => ?_
    have le := greatest later also (leads.of_solid (bare ▸ run) (by omega))
    obtain ⟨runStop, after, before, -, -⟩ := leads
    omega
  · have inside := (List.getElem?_eq_some_iff.1 stands.star).1
    have here := List.getElem?_eq_getElem (show first.star - 1 < text.length by omega)
    exact .inl ⟨first.star - 1, _, by omega, here, padding.at_ (by omega) (by omega) here⟩

/-- No command before the last one that a run leads to ends the run. -/
theorem le_of_endsRun (last : IsLast text (Leads text offset) (some first))
    (stands : command.StandsIn text) (ahead : command.IsAhead text offset) (ends : command.EndsRun text) :
    first.star ≤ command.star := by
  obtain ⟨also, ⟨runStop, after, before, run, padding⟩, -⟩ := last
  have behind := ahead.lt
  by_contra early
  have inRun : command.star < runStop := by
    by_contra far
    have gap := padding.at_ (by omega) (by omega) stands.star
    exact absurd gap (by decide)
  rcases ends with ⟨i, c, next, here, padded⟩ | none
  · have solid := run.at_ (by omega) (by omega) here
    rw [isPadding_of_isSolid solid] at padded
    cases padded
  · exact none first also ⟨runStop, inRun, before, run.part (by omega) (Nat.le_refl _), padding⟩

/-- Behind a command stands what adjoins it and what solid characters behind it lead to. -/
theorem isAhead_stop_iff (stands : first.StandsIn text) (also : command.StandsIn text)
    (behind : first.star < command.star) (ahead : command.IsAhead text offset) :
    command.IsAhead text first.stop ↔ ¬ Adjoins text first command := by
  have apart := stands.stop_le also behind
  constructor
  · rintro ⟨start, le, runStop, after, before, run, -⟩ ⟨-, padding⟩
    have inside := (List.getElem?_eq_some_iff.1 also.star).1
    have here := List.getElem?_eq_getElem (show start < text.length by omega)
    have padded := padding.at_ le (by omega) here
    rw [isPadding_of_isSolid (run.at_ (Nat.le_refl _) after here)] at padded
    cases padded
  · intro free
    obtain ⟨start, le, runStop, after, before, run, padding⟩ := ahead
    by_cases near : start < first.stop
    · by_cases short : runStop ≤ first.stop
      · exact absurd ⟨apart, padding.part short (Nat.le_refl _)⟩ free
      · exact ⟨first.stop, Nat.le_refl _, runStop, by omega, before,
          run.part (by omega) (Nat.le_refl _), padding⟩
    · exact ⟨start, by omega, runStop, after, before, run, padding⟩

end Taken

theorem not_adjoins_of_le (le : other.star ≤ command.star) : ¬ Adjoins text command other := by
  rintro ⟨apart, -⟩
  unfold stop at apart
  omega

/-- The search goes on behind a command. -/
theorem drop_behind {rest : Text} (split : text.drop offset = c :: rest) (lt : offset < command.star) :
    text.drop command.stop = rest.drop (command.stop - offset - 1) := by
  have le := star_le_stop command
  rw [← (drop_eq_cons_iff.1 split).2, List.drop_drop]
  congr 1
  omega

/-- The search from an offset finds a command that is ahead unless it adjoins one that is found or does not
end its run. -/
theorem mem_find_iff {rest : Text} (split : text.drop offset = rest) :
    command ∈ find offset rest ↔ command.StandsIn text ∧ command.IsAhead text offset ∧
      (∀ earlier ∈ find offset rest, ¬ Adjoins text earlier command) ∧ command.EndsRun text := by
  fun_induction find offset rest generalizing command with
  | case1 offset =>
      have outside := List.drop_eq_nil_iff.1 split
      refine iff_of_false (by simp) fun ⟨stands, ahead, _⟩ => ?_
      have inside := (List.getElem?_eq_some_iff.1 stands.star).1
      have behind := ahead.lt
      omega
  | case2 offset c rest blank ih =>
      obtain ⟨here, further⟩ := drop_eq_cons_iff.1 split
      refine (ih further).trans (and_congr_right fun _ => and_congr_left fun _ => ?_)
      exact ⟨fun ahead => ahead.mono (Nat.le_succ _), fun ahead => ahead.skip here (by simp [isSolid, blank])⟩
  | case3 offset c rest solid first found ih =>
      have last : IsLast text (Leads text offset) (some first) :=
        found ▸ isLast_ofRun split (by simpa using solid)
      have lead : first.IsAhead text offset := ⟨offset, Nat.le_refl _, last.2.1⟩
      have further := drop_behind split lead.lt
      rw [List.mem_cons, ih further, List.forall_mem_cons]
      constructor
      · rintro (rfl | ⟨stands, ahead, free, ends⟩)
        · refine ⟨last.1, lead, ⟨not_adjoins_of_le (Nat.le_refl _), fun earlier member => ?_⟩,
            endsRun_of_isLast last⟩
          have behind := ((ih further).1 member).2.1.lt
          exact not_adjoins_of_le (Nat.le_trans (star_le_stop _) (Nat.le_of_lt behind))
        · have behind := Nat.lt_of_le_of_lt (star_le_stop first) ahead.lt
          have all := ahead.mono (Nat.le_trans (Nat.le_of_lt lead.lt) (star_le_stop first))
          exact ⟨stands, all, ⟨(isAhead_stop_iff last.1 stands behind all).1 ahead, free⟩, ends⟩
      · rintro ⟨stands, ahead, ⟨apart, free⟩, ends⟩
        have order := le_of_endsRun last stands ahead ends
        by_cases same : command.star = first.star
        · exact .inl (stands.eq_of_star last.1 same)
        · exact .inr ⟨stands, (isAhead_stop_iff last.1 stands (by omega) ahead).2 apart, free, ends⟩
  | case4 offset c rest solid none skipped =>
      rename_i ih
      obtain ⟨here, further⟩ := drop_eq_cons_iff.1 split
      have last : IsLast text (Leads text offset) Option.none :=
        none ▸ isLast_ofRun split (by simpa using solid)
      have run : Fills isSolid text offset (offset + 1 + (rest.takeWhile isSolid).length) := by
        have behind := further ▸ fills_takeWhile isSolid text (offset + 1)
        exact behind.cons here (by simpa [isSolid] using solid)
      refine (ih ?_).trans (and_congr_right fun stands => and_congr_left fun _ => ?_)
      · rw [← further, List.drop_drop]
      · exact ⟨fun ahead => ahead.mono (by omega), fun ahead => ahead.pass run (last command stands)⟩

/-- The search from the start of a text finds misplaced commands. -/
theorem mem_find_zero_iff : command ∈ find 0 text ↔ command.IsMisplaced text ∧
    (∀ earlier ∈ find 0 text, ¬ Adjoins text earlier command) ∧ command.EndsRun text := by
  rw [mem_find_iff (List.drop_zero (l := text)), ← and_assoc]
  refine and_congr_left fun _ => ?_
  constructor
  · rintro ⟨stands, start, -, leads⟩
    exact stands.misplaced_iff.2 ⟨start, leads⟩
  · intro misplaced
    obtain ⟨start, leads⟩ := misplaced.1.misplaced_iff.1 misplaced
    exact ⟨misplaced.1, start, Nat.zero_le _, leads⟩

/-- Commands are found one after another. -/
theorem find_ordered {rest : Text} (split : text.drop offset = rest) :
    (find offset rest).Pairwise fun a b => a.stop ≤ b.star := by
  fun_induction find offset rest with
  | case1 offset => exact .nil
  | case2 offset c rest blank ih => exact ih (drop_eq_cons_iff.1 split).2
  | case3 offset c rest solid first found ih =>
      have last : IsLast text (Leads text offset) (some first) :=
        found ▸ isLast_ofRun split (by simpa using solid)
      have further := drop_behind split last.lt
      refine .cons (fun later member => ?_) (ih further)
      exact Nat.le_of_lt ((mem_find_iff further).1 member).2.1.lt
  | case4 offset c rest solid none skipped =>
      rename_i ih
      exact ih (by rw [← (drop_eq_cons_iff.1 split).2, List.drop_drop])

theorem StandsIn.exists_head (stands : command.StandsIn text) :
    ∃ before after, text = before ++ '*' :: after ∧ before.length = command.star := by
  have inside := (List.getElem?_eq_some_iff.1 stands.star).1
  refine ⟨text.take command.star, text.drop (command.star + 1), ?_, ?_⟩
  · rw [← drop_eq_cons_iff.2 ⟨stands.star, rfl⟩, List.take_append_drop]
  · rw [List.length_take, Nat.min_eq_left (Nat.le_of_lt inside)]

/-- More than padding stands before a misplaced command in its line. -/
theorem IsMisplaced.line {before line after : Text} (starts : ∀ d ∈ before.getLast?, d = '\n')
    (misplaced : command.IsMisplaced (before ++ line ++ after))
    (here : (before ++ line).length = command.star) : ∃ d ∈ line, isPadding d = false := by
  obtain ⟨-, i, d, ahead, there, solid, gap⟩ := misplaced
  rw [List.getElem?_append_left (by omega)] at there
  by_cases inLine : before.length ≤ i
  · rw [List.getElem?_append_right inLine] at there
    exact ⟨d, List.mem_of_getElem? there, isPadding_of_isSolid solid⟩
  · -- the line feed before the line would stand in the padding, or be solid
    have feed : before[before.length - 1]? = some '\n' := by
      rw [← List.getLast?_eq_getElem?]
      have nonempty : before ≠ [] := List.ne_nil_of_length_pos (by omega)
      rw [List.getLast?_eq_some_getLast nonempty, starts _ (List.getLast?_eq_some_getLast nonempty)]
    have within : (before ++ line ++ after)[before.length - 1]? = some '\n' := by
      rw [List.append_assoc, List.getElem?_append_left (by omega), feed]
    by_cases last : i = before.length - 1
    · rw [List.getElem?_append_left (by omega), last, feed] at there
      obtain rfl := Option.some.inj there
      exact absurd solid (by decide)
    · have lengths : before.length ≤ command.star := by
        rw [← here, List.length_append]
        exact Nat.le_add_right _ _
      exact absurd (gap.at_ (by omega) (by omega) within) (by decide)

/-- The command that a line starts with is read off what stands before a misplaced command. -/
theorem IsMisplaced.lineCommand_iff {name : String} (misplaced : command.IsMisplaced text)
    (named : name ≠ "") (word : ∀ d ∈ name.toList, isWord d = true) :
    text.lineCommand command.star = name ↔ text.LineStartsWith name.toList command.star := by
  obtain ⟨head, after, rfl, here⟩ := misplaced.1.exists_head
  rw [← here]
  have noWord : isWord '*' = false := by decide
  refine Text.lineCommand_iff named word noWord (by decide) (by decide) ?_
  rintro - before line rfl starts
  exact misplaced.line starts here

/-- A command may stand in a comment, and a condition may follow a command on the reuse of options. -/
def MayStay (text : Text) (command : InnerCommand) : Prop :=
  text.InComment command.star ∨
    String.ofList command.name ∈ ["if", "selectable_if"] ∧
      ∃ reuse ∈ Vocabulary.reuseCommands, text.LineStartsWith reuse.toList command.star

theorem IsMisplaced.mayFollow_iff (misplaced : command.IsMisplaced text) :
    Rule.mayFollow (text.lineCommand command.star) (String.ofList command.name) = true ↔
      command.MayStay text := by
  have comment : text.lineCommand command.star = "comment" ↔ text.InComment command.star :=
    (misplaced.lineCommand_iff (show "comment" ≠ "" by decide)
      (List.all_eq_true.1 (by decide +kernel))).trans inComment_iff.symm
  have reuse (name : String) (member : name ∈ Vocabulary.reuseCommands) :
      text.lineCommand command.star = name ↔ text.LineStartsWith name.toList command.star := by
    have words : ∀ name ∈ Vocabulary.reuseCommands, name ≠ "" ∧ name.toList.all isWord = true := by
      decide +kernel
    exact misplaced.lineCommand_iff (words name member).1 (List.all_eq_true.1 (words name member).2)
  have reuses : text.lineCommand command.star ∈ Vocabulary.reuseCommands ↔
      ∃ name ∈ Vocabulary.reuseCommands, text.LineStartsWith name.toList command.star := by
    constructor
    · exact fun member => ⟨_, member, (reuse _ member).1 rfl⟩
    · rintro ⟨name, member, starts⟩
      rwa [(reuse name member).2 starts]
  simp [Rule.mayFollow, MayStay, comment, reuses]

end InnerCommand

namespace Rule

open InnerCommand

/-- What is said of a command that follows other text on its line. -/
def placementNote (document : Document) (command : InnerCommand) : Diagnostic where
  code := Notice.commandNotOnOwnLine.code
  message := "*" ++ String.ofList command.name ++ " should be on a line by itself"
  range := ⟨document.positionAt command.star, document.positionAt command.stop,
    Document.positionAt_mono (Int.ofNat_le.2 (star_le_stop command))⟩
  severity := Notice.commandNotOnOwnLine.severity
  hint := Notice.commandNotOnOwnLine.hint
  category := some Notice.commandNotOnOwnLine.category

theorem placement_note (document : Document) (command : InnerCommand) :
    Notice.commandNotOnOwnLine.between document command.star command.stop
      [("command", String.ofList command.name)] = .ok (placementNote document command) := by
  have le : (command.star : Int) ≤ command.stop := Int.ofNat_le.2 (star_le_stop command)
  rw [Notice.between, Document.rangeAt_eq le]
  rfl

/-- Of the misplaced commands the rule finds those that end their runs, apart from the ones that adjoin
another that it finds. It reports each valid one that may not stay, once and in the order of the text. -/
theorem placement_reports_iff (inspection : Inspection) : ∃ found reported : List InnerCommand,
    (∀ command, command ∈ found ↔ command.IsMisplaced inspection.document.text ∧
      (∀ earlier ∈ found, ¬ Adjoins inspection.document.text earlier command) ∧
      command.EndsRun inspection.document.text) ∧
    (∀ command, command ∈ reported ↔ command ∈ found ∧
      String.ofList command.name ∈ Vocabulary.commands ∧ ¬ command.MayStay inspection.document.text) ∧
    (reported.Pairwise fun a b => a.stop ≤ b.star) ∧
    placement.run inspection = .ok (reported.map (placementNote inspection.document)) := by
  generalize whole : inspection.document.text = text
  refine ⟨find 0 text, (find 0 text).filter fun command =>
    Vocabulary.commands.contains (String.ofList command.name) &&
      !mayFollow (text.lineCommand command.star) (String.ofList command.name),
    fun command => mem_find_zero_iff, ?_, ?_, ?_⟩
  · intro command
    rw [List.mem_filter]
    refine and_congr_right fun member => ?_
    rw [Bool.and_eq_true, List.contains_iff_mem, Bool.not_eq_true', ← Bool.not_eq_true,
      (mem_find_zero_iff.1 member).1.mayFollow_iff]
  · exact (find_ordered List.drop_zero).sublist List.filter_sublist
  · rw [← whole]
    exact Outcome.mapM_eq fun command _ => placement_note inspection.document command

/-- Two commands behind a word. -/
def twoBehind : Inspection := .of ⟨"file:///game/a.txt", "a *goto *finish\n".toList, 0⟩ {}

/-- The second command adjoins the first, so it is not reported. -/
theorem placement_misses_adjoining : ¬ ∀ (inspection : Inspection) (command : InnerCommand)
    (reported : List Diagnostic), placement.run inspection = .ok reported →
      command.IsMisplaced inspection.document.text → String.ofList command.name ∈ Vocabulary.commands →
      ¬ command.MayStay inspection.document.text →
      placementNote inspection.document command ∈ reported := by
  intro complete
  have stands : StandsIn ⟨8, "finish".toList⟩ twoBehind.document.text :=
    ⟨by decide +kernel, by decide +kernel, by decide⟩
  have misplaced : IsMisplaced ⟨8, "finish".toList⟩ twoBehind.document.text :=
    ⟨stands, 6, 'o', by decide, by decide +kernel, by decide, List.all_eq_true.1 (by decide +kernel)⟩
  have stays : ¬ MayStay twoBehind.document.text ⟨8, "finish".toList⟩ := by
    rw [← misplaced.mayFollow_iff]
    decide +kernel
  have ran : placement.run twoBehind =
      .ok [placementNote twoBehind.document ⟨2, "goto".toList⟩] := by
    decide +kernel
  have missed : placementNote twoBehind.document ⟨8, "finish".toList⟩ ∉
      [placementNote twoBehind.document ⟨2, "goto".toList⟩] := by
    decide +kernel
  exact missed (complete _ _ _ ran misplaced (by decide +kernel) stays)

end Rule

end ChoiceScript
