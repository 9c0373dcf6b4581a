import ChoiceScript.Parser.Document
import ChoiceScript.Proofs.Mention.Inline

/-! # Reading always goes on

Nothing bounds the readers of constructs but the text: they call one another, on shorter and shorter
sections. `Descent` says so in its type. Here the readers take a way to read expressions of any
length, and what they do with it is seen not to depend on the sections that are too long: they enter
expressions only that are shorter than the construct. So there is just one way to read expressions
that calls itself through the readers, and it is the one that runs.

The loop over a document goes on where the reader of each construct says. That is always further
right, and inside the text.
-/

namespace ChoiceScript

/-- A way to read expressions of any length, given the document offset of their text. -/
abbrev Reading : Type := (text : Text) → (index : Int) → Parser Unit

/-- Two ways to read expressions agree on those shorter than a bound. -/
def Reading.AgreeBelow (bound : Nat) (read other : Reading) : Prop :=
  ∀ text : Text, text.length < bound → read text = other text

theorem Reading.AgreeBelow.mono {low high : Nat} {read other : Reading}
    (agree : AgreeBelow high read other) (le : low ≤ high) : AgreeBelow low read other :=
  fun text shorter => agree text (Nat.lt_of_lt_of_le shorter le)

/-- The descents that a way to read expressions makes. -/
def Descent.of (read : Reading) (bound : Nat) : Descent bound := fun text _ index => read text index

theorem Descent.of_congr {bound : Nat} {read other : Reading} (agree : Reading.AgreeBelow bound read other) :
    Descent.of read bound = Descent.of other bound := by
  funext text shorter index
  exact congrFun (agree text shorter) index

namespace Parser

theorem forM_congr {β : Type} {list : List β} {step other : β → Parser Unit}
    (same : ∀ member ∈ list, step member = other member) : list.forM step = list.forM other := by
  induction list with
  | nil => rfl
  | cons first rest ih =>
      have later := ih fun member present => same member (by simp [present])
      change (step first >>= fun _ => rest.forM step) = (other first >>= fun _ => rest.forM other)
      rw [same first (by simp), later]

section Congruence

variable {read other : Reading} {text : Text} {openLength origin : Int} {start : Nat}

theorem referenceWith_congr
    (agree : Reading.AgreeBelow (text.resumeReference start - start) read other) :
    referenceWith text (.of read _) openLength origin start =
      referenceWith text (.of other _) openLength origin start := by
  have same : referenceContents text (.of read _) openLength origin start =
      referenceContents text (.of other _) openLength origin start := by
    unfold referenceContents
    split
    · rfl
    · rename_i contents span
      split
      · rfl
      · rename_i solid
        have stop := Text.resumeReference_eq span (by simpa using solid)
        exact congrFun (agree contents (by omega)) (start + origin)
  simp only [referenceWith, same]

theorem parenthesesWith_congr
    (agree : Reading.AgreeBelow (text.resumeGroup '(' ')' start - start) read other) :
    parenthesesWith text (.of read _) origin start =
      parenthesesWith text (.of other _) origin start := by
  have same : parenthesesContents text (.of read _) origin start =
      parenthesesContents text (.of other _) origin start := by
    unfold parenthesesContents
    split
    · rfl
    · rename_i contents span
      have stop := Text.resumeGroup_eq span
      exact congrFun (agree contents (by omega)) (start + origin)
  simp only [parenthesesWith, same]

theorem optionsWith_congr {bound : Nat} {options : List Piece}
    (short : ∀ option ∈ options, option.text.length < bound)
    (agree : ∀ option ∈ options, Reading.AgreeBelow option.text.length read other) :
    optionsWith (.of read bound) origin options short =
      optionsWith (.of other bound) origin options short := by
  induction options with
  | nil => rfl
  | cons option options ih =>
      have here : optionWith option.text (.of read _) (option.start + origin) =
          optionWith option.text (.of other _) (option.start + origin) := by
        rw [Descent.of_congr (agree option (by simp))]
      have later := ih (fun option member => short option (by simp [member]))
        fun option member => agree option (by simp [member])
      simp only [optionsWith]
      rw [later]
      exact congrArg (· >>= fun _ => _) here

theorem multireplaceWith_congr
    (agree : Reading.AgreeBelow (Multireplace.resume text start - start) read other) :
    multireplaceWith text (.of read _) openLength origin start =
      multireplaceWith text (.of other _) openLength origin start := by
  have same : ∀ nested, multireplaceContents text (.of read _) openLength origin start nested =
      multireplaceContents text (.of other _) openLength origin start nested := by
    intro nested
    unfold multireplaceContents
    dsimp only
    split
    · rfl
    · rename_i multireplace found
      cases flaw : multireplace.flaw? with
      | some reason => cases reason <;> rfl
      | none =>
          have stop := Multireplace.resume_eq found flaw
          have short := Multireplace.length_lt_of_read? found
          have parts := Multireplace.parts_shorter found
          have below : ∀ piece ∈ multireplace.test :: multireplace.options,
              piece.text.length < Multireplace.resume text start - start := by
            intro piece member
            have := parts piece member
            omega
          have test := agree multireplace.test.text (below _ (by simp))
          have options : optionsWith (.of read text.length) origin multireplace.options short.2 =
              optionsWith (.of other text.length) origin multireplace.options short.2 :=
            optionsWith_congr short.2 fun option member =>
              agree.mono (Nat.le_of_lt (below option (by simp [member])))
          simp only [Descent.of, test]
          rw [options]
  simp only [multireplaceWith, same]

/-- The reader of the construct that opens at a place gives the offset where reading goes on. -/
def openingReader (read : Reading) (text : Text) (origin : Int) (opening : Opening) : Parser Nat :=
  match opening.opener.kind with
  | .replacement => referenceWith text (.of read _) opening.opener.length origin opening.contents
  | .multireplace => multireplaceWith text (.of read _) opening.opener.length origin opening.contents

theorem openingWith_eq (read : Reading) (text : Text) (origin : Int) (opening : Opening) :
    openingWith text (.of read _) origin opening = discard (openingReader read text origin opening) := by
  unfold openingWith openingReader
  cases opening.opener.kind <;> rfl

theorem openingReader_congr {opening : Opening}
    (agree : Reading.AgreeBelow (opening.resume text - opening.contents) read other) :
    openingReader read text origin opening = openingReader other text origin opening := by
  unfold openingReader
  cases kind : opening.opener.kind with
  | replacement =>
      rw [Opening.resume_of_replacement text kind] at agree
      exact referenceWith_congr agree
  | multireplace =>
      rw [Opening.resume_of_multireplace text kind] at agree
      exact multireplaceWith_congr agree

theorem stringWith_congr (inside : start ≤ text.length)
    (agree : Reading.AgreeBelow ((Opening.inString text start).2 - start) read other) :
    stringWith text (.of read _) origin start = stringWith text (.of other _) origin start := by
  have same : (Opening.inString text start).1.forM (openingWith text (.of read _) origin) =
      (Opening.inString text start).1.forM (openingWith text (.of other _) origin) := by
    apply forM_congr
    intro opening member
    have first := (Opening.inString_inOrder text start).after opening member
    have last := (Opening.inString_stop inside).2.2 opening member
    rw [openingWith_eq, openingWith_eq, openingReader_congr (agree.mono _)]
    simp only [Opening.contents]
    omega
  simp only [stringWith, same]

end Congruence

/-- An expression is read by its tokens, then its lexing errors are reported. -/
def expressionBy (read : Reading) (text : Text) (index : Int) : Parser Unit := do
  let expression := Expression.ofText text index
  tokensWith index expression.tokens fun _ _ => .of read _
  lexErrors expression

theorem expressionBy_congr {read other : Reading} {text : Text} {index : Int}
    (agree : ∀ token ∈ (Expression.ofText text index).tokens,
      Reading.AgreeBelow token.text.length read other) :
    expressionBy read text index = expressionBy other text index := by
  have same : (fun (token : Token) (_ : token ∈ (Expression.ofText text index).tokens) =>
      Descent.of read token.text.length) = fun (token : Token) _ => Descent.of other token.text.length := by
    funext token member
    exact Descent.of_congr (agree token member)
  simp only [expressionBy, same]

/-- There is one way to read expressions that reads what stands in them in the same way. -/
theorem eq_walk_iff (read : Reading) :
    (∀ text index, read text index = expressionBy read text index) ↔ read = walk := by
  constructor
  · intro unfolds
    funext text
    induction shorter : text.length using Nat.strongRecOn generalizing text with
    | ind length ih =>
        subst shorter
        funext index
        rw [unfolds, walk]
        apply expressionBy_congr
        intro token member inner short
        have := Expression.length_le_of_mem_tokens member
        exact ih inner.length (by omega) inner rfl
  · rintro rfl text index
    rw [walk]
    rfl

/-- A reader of a construct whose contents start at one offset goes on at another one, which is no
further left and inside the text, whatever was read before. Expressions are entered that are shorter
than the construct, and no others. -/
structure Resumes (reader : Reading → Parser Nat) (text : Text) (start stop : Nat) : Prop where
  forward : start ≤ stop
  inside : stop ≤ text.length
  goesOn : ∀ source progress, (reader walk source progress).1 = .ok stop
  shorter : ∀ read other, Reading.AgreeBelow (stop - start) read other → reader read = reader other

section Resumes

variable {text : Text} {start : Nat} (inside : start ≤ text.length) (openLength : Nat) (origin : Int)

include inside

theorem referenceWith_resumes :
    Resumes (fun read => referenceWith text (.of read _) openLength origin start) text start
      (text.resumeReference start) where
  forward := Text.le_resumeReference text start
  inside := Text.resumeReference_le inside
  goesOn source progress := by
    obtain ⟨stop, passed, rfl⟩ := Adds.passes (fun context => lays_referenceWith (lays_descent _)
      (Int.natCast_nonneg openLength) inside (Int.le_refl _) (Int.le_refl _)) progress
    exact passed
  shorter _ _ := referenceWith_congr

theorem parenthesesWith_resumes :
    Resumes (fun read => parenthesesWith text (.of read _) origin start) text start
      (text.resumeGroup '(' ')' start) where
  forward := Text.le_resumeGroup text '(' ')' start
  inside := Text.resumeGroup_le inside
  goesOn source progress := by
    obtain ⟨stop, passed, rfl⟩ :=
      Adds.passes (fun context => lays_parenthesesWith (lays_descent _) inside (Int.le_refl _)
        (Int.le_refl _)) progress
    exact passed
  shorter _ _ := parenthesesWith_congr

theorem stringWith_resumes :
    Resumes (fun read => stringWith text (.of read _) origin start) text start
      (Opening.inString text start).2 where
  forward := (Opening.inString_stop inside).1
  inside := (Opening.inString_stop inside).2.1
  goesOn source progress := by
    obtain ⟨stop, passed, rfl⟩ :=
      Adds.passes (fun context => lays_stringWith (lays_descent _) inside (Int.le_refl _)
        (Int.le_refl _)) progress
    exact passed
  shorter _ _ := stringWith_congr inside

theorem multireplaceWith_resumes :
    Resumes (fun read => multireplaceWith text (.of read _) openLength origin start) text start
      (Multireplace.resume text start) where
  forward := Multireplace.le_resume text start
  inside := Multireplace.resume_le inside
  goesOn source progress := by
    obtain ⟨stop, passed, rfl⟩ := Adds.passes (fun context => lays_multireplaceWith (lays_descent _)
      (Int.natCast_nonneg openLength) inside (Int.le_refl _) (Int.le_refl _)) progress
    exact passed
  shorter _ _ := multireplaceWith_congr

end Resumes

theorem openingReader_resumes {text : Text} {opening : Opening}
    (inside : opening.contents ≤ text.length) (origin : Int) :
    Resumes (fun read => openingReader read text origin opening) text opening.contents
      (opening.resume text) := by
  unfold openingReader
  cases kind : opening.opener.kind with
  | replacement =>
      rw [Opening.resume_of_replacement text kind]
      exact referenceWith_resumes inside opening.opener.length origin
  | multireplace =>
      rw [Opening.resume_of_multireplace text kind]
      exact multireplaceWith_resumes inside opening.opener.length origin

/-- One round of the loop over a document: what is found from a position on is read, and the place
where it ends, or where its reader says, is the next position. -/
def round (position : Nat) : Parser (Option Nat) := do
  let text := (← document).text
  match Construct.seek (position = 0) position (text.drop position) with
  | none => return none
  | some (.commandLine start line) =>
    construct (.commandLine start line)
    return some (start + line.length)
  | some (.inline opening) => return some (← openingReader walk text 0 opening)

/-- Read the constructs of a document from a position on. -/
def readFrom (position : Nat) : Parser Unit := do
  (Construct.allFrom (← document).text position).forM construct

section Round

variable {position : Nat} {source : Source}

theorem round_of_none (progress : Progress)
    (missing : Construct.seek (position = 0) position (source.document.text.drop position) = none) :
    round position source progress = (.ok none, progress) := by
  simp only [round, Bind.bind, document, missing]
  rfl

/-- A round goes on where the text says. -/
theorem round_of_seek {found : Construct} (progress : Progress)
    (sought : Construct.seek (position = 0) position (source.document.text.drop position) = some found)
    (stands : found.StandsIn source.document.text 0) :
    round position source progress = (do
      construct found
      return some (found.resume source.document.text)) source progress := by
  simp only [round, Bind.bind, document, sought]
  cases found with
  | commandLine start line => rfl
  | inline opening =>
      have inside : opening.contents ≤ source.document.text.length := by
        simpa [Construct.StandsIn] using stands
      have goesOn := (openingReader_resumes inside 0).goesOn source progress
      have reads : construct (.inline opening) source progress =
          discard (openingReader walk source.document.text 0 opening) source progress :=
        congrFun (congrFun (openingWith_eq walk source.document.text 0 opening) source) progress
      simp only [reads, discard, Bind.bind]
      cases ran : openingReader walk source.document.text 0 opening source progress with
      | mk outcome after =>
          rw [ran] at goesOn
          simp only at goesOn
          subst goesOn
          rfl

theorem standsIn_of_seek {found : Construct}
    (sought : Construct.seek (position = 0) position (source.document.text.drop position) = some found) :
    found.StandsIn source.document.text 0 := by
  apply Construct.standsIn_of_mem_allFrom
  rw [Construct.allFrom_eq, sought]
  exact List.mem_cons_self

/-- Each round goes on further right, inside the text. -/
theorem round_further {progress : Progress} {next : Nat}
    (passed : (round position source progress).1 = .ok (some next)) :
    position < next ∧ next ≤ source.document.text.length := by
  cases sought : Construct.seek (position = 0) position (source.document.text.drop position) with
  | none =>
      rw [round_of_none progress sought] at passed
      cases passed
  | some found =>
      have stands := standsIn_of_seek sought
      rw [round_of_seek progress sought stands] at passed
      have same : next = found.resume source.document.text := by
        simp only [Bind.bind] at passed
        cases ran : construct found source progress with
        | mk outcome after =>
            rw [ran] at passed
            cases outcome with
            | ok value => exact (Option.some.inj (Except.ok.inj passed)).symm
            | error fault => cases passed
      subst same
      exact ⟨(Construct.lt_resume_of_seek _ sought).1, Construct.resume_le stands⟩

end Round

/-- Reading from a position on is one round, and then reading from the next position on. -/
theorem readFrom_eq (position : Nat) : readFrom position = (do
    match ← round position with
    | none => pure ()
    | some next => readFrom next) := by
  funext source progress
  simp only [readFrom, Bind.bind, document]
  rw [Construct.allFrom_eq]
  cases sought : Construct.seek (position = 0) position (source.document.text.drop position) with
  | none =>
      rw [round_of_none progress sought]
      rfl
  | some found =>
      rw [round_of_seek progress sought (standsIn_of_seek sought)]
      change (construct found >>= fun _ => (Construct.allFrom source.document.text
        (found.resume source.document.text)).forM construct) source progress = _
      simp only [Bind.bind]
      cases ran : construct found source progress with
      | mk outcome after =>
          cases outcome with
          | ok value => rfl
          | error fault => rfl

/-- The loop over a document. It ends, for there is no endless row of rounds. -/
structure Loops : Prop where
  starts : whole = readFrom 0
  unfolds : ∀ position, readFrom position = do
    match ← round position with
    | none => pure ()
    | some next => readFrom next
  further : ∀ position source progress next, (round position source progress).1 = .ok (some next) →
    position < next ∧ next ≤ source.document.text.length
  ends : ∀ source : Source, WellFounded fun next position =>
    ∃ progress, (round position source progress).1 = .ok (some next)

theorem loops : Loops where
  starts := rfl
  unfolds := readFrom_eq
  further _ _ _ _ := round_further
  ends source := by
    apply Subrelation.wf _ (measure fun position => source.document.text.length - position).wf
    rintro next position ⟨progress, passed⟩
    have := round_further passed
    change source.document.text.length - next < source.document.text.length - position
    omega

/-- Reading always goes on. The loop over a document ends, as each round goes on further right. Every
reader of a construct, wherever its contents start in a text, goes on no further left and inside the
text, and enters expressions only that are shorter than the construct; so are the test and options of
a multireplace. In strings and prose each construct stands where reading goes on after the one before,
or further right. Of all ways to read expressions that read what stands in them in the same way there
is one, for an expression depends on what is shorter than its tokens only. -/
theorem reading_goes_on :
    Loops ∧
    (∀ (text : Text) (start openLength : Nat) (origin : Int), start ≤ text.length →
      Resumes (fun read => referenceWith text (.of read _) openLength origin start) text start
        (text.resumeReference start) ∧
      Resumes (fun read => parenthesesWith text (.of read _) origin start) text start
        (text.resumeGroup '(' ')' start) ∧
      Resumes (fun read => stringWith text (.of read _) origin start) text start
        (Opening.inString text start).2 ∧
      Resumes (fun read => multireplaceWith text (.of read _) openLength origin start) text start
        (Multireplace.resume text start)) ∧
    (∀ (text : Text) (start : Nat) (multireplace : Multireplace),
      Multireplace.read? text start = some multireplace →
      ∀ piece ∈ multireplace.test :: multireplace.options,
        start + piece.text.length < multireplace.stop) ∧
    (∀ (text : Text) (start stop : Nat),
      Opening.InOrder text start (Opening.between text start stop) ∧
        Opening.InOrder text start (Opening.inString text start).1) ∧
    (∀ (read other : Reading) (text : Text) (index : Int),
      (∀ token ∈ (Expression.ofText text index).tokens,
        Reading.AgreeBelow token.text.length read other) →
      expressionBy read text index = expressionBy other text index) ∧
    ∀ read : Reading,
      (∀ text index, read text index = expressionBy read text index) ↔ read = walk := by
  refine ⟨loops, ?_, ?_, ?_, fun _ _ _ _ => expressionBy_congr, eq_walk_iff⟩
  · intro text start openLength origin inside
    exact ⟨referenceWith_resumes inside openLength origin, parenthesesWith_resumes inside origin,
      stringWith_resumes inside origin, multireplaceWith_resumes inside openLength origin⟩
  · exact fun _ _ _ => Multireplace.parts_shorter
  · exact fun text start stop =>
      ⟨Opening.between_inOrder text start stop, Opening.inString_inOrder text start⟩

/-- A document that is one reference, with another one in it. -/
def nestedReference : Source :=
  ⟨⟨"file:///game/a.txt", "\x7b\x7bgold\x7d + 1\x7d".toList, 0⟩, "startup.txt"⟩

theorem nestedReference_goes_on : 1 ≤ nestedReference.document.text.length ∧
    ((referenceWith nestedReference.document.text (.of walk _) 1 0 1).run nestedReference).1 =
      .ok 12 := by
  have inside : 1 ≤ nestedReference.document.text.length := by decide
  have stop : nestedReference.document.text.resumeReference 1 = 12 := by decide
  have resumes := (reading_goes_on.2.1 nestedReference.document.text 1 1 0 inside).1
  exact ⟨inside, stop ▸ resumes.goesOn nestedReference {}⟩

end Parser

end ChoiceScript
