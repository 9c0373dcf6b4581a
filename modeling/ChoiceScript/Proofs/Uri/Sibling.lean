import ChoiceScript.Proofs.Uri.Normal

/-! # Addresses of siblings

The address of a file beside one with a normal address can be read. Its authority, if it has one, is
that of the other file, and its path neither starts with two slashes nor has a scheme in front of it
that the other address does not have.
-/

namespace ChoiceScript

namespace Path

theorem trimSlashes_part (path : Text) : trimSlashes path <+: path := by
  have kept := List.reverse_prefix.2 (List.dropWhile_suffix (· = '/') (l := path.reverse))
  rwa [List.reverse_reverse] at kept

theorem folder_part (path : Text) : folder path <+: path := by
  have head := List.reverse_prefix.2 (List.dropWhile_suffix (· ≠ '/') (l := path.reverse))
  rw [List.reverse_reverse] at head
  unfold folder
  dsimp only
  split
  · exact head
  · exact (trimSlashes_part _).trans head

/-- A simple name is put after a folder, with a slash unless the folder ends in one. -/
theorem within_eq (folder : Text) {name : Text} (relative : name.head? ≠ some '/') :
    ∃ tail, within folder name = folder ++ tail ∧
      (tail = name ∨ tail = '/' :: name ∧ folder ≠ [] ∧ folder.getLast? ≠ some '/') := by
  unfold within
  rw [if_neg relative]
  split
  · exact ⟨name, rfl, .inl rfl⟩
  · rename_i apart
    simp only [Bool.or_eq_true, decide_eq_true_eq, not_or] at apart
    exact ⟨'/' :: name, rfl, .inr ⟨rfl, apart.1, apart.2⟩⟩

end Path

namespace Uri

/-- The characters of simple file names are no marks, colons, blanks or control characters. -/
structure IsSimple (name : Text) : Prop where
  nonempty : name ≠ []
  chars : ∀ c ∈ name, isPlain c = true ∧ c ≠ ':' ∧ 0x20 < c.toNat

theorem isKept_of_high {c : Char} (high : 0x20 < c.toNat) : isKept c = true := by
  by_contra lost
  rcases eq_break_of_not_isKept lost with rfl | rfl | rfl <;> exact absurd high (by decide)

theorem IsSimple.head {name : Text} (simple : IsSimple name) : name.head? ≠ some '/' := by
  intro slash
  have := (simple.chars '/' (List.mem_of_head? slash)).1
  cases this

theorem stripped_eq_self {text : Text} (kept : ∀ c ∈ text, isKept c = true)
    (head : ∀ c ∈ text.head?, 0x20 < c.toNat) : stripped text = text := by
  obtain ⟨low, whole, control⟩ := stripped_of_kept kept
  cases low with
  | nil => exact whole.symm
  | cons c rest =>
      have high := head c (by rw [whole]; rfl)
      have low := control c List.mem_cons_self
      omega

theorem head_of_stripped {address : Text} {c : Char} (first : (stripped address).head? = some c) :
    0x20 < c.toNat := by
  unfold stripped at first
  cases rest : address.dropWhile (·.toNat ≤ 0x20) with
  | nil => simp [rest] at first
  | cons d others =>
      have high : 0x20 < d.toNat := by
        have := List.head?_dropWhile_not (·.toNat ≤ 0x20) address
        simpa [rest] using this
      have kept := isKept_of_high high
      change ((address.dropWhile _).filter isKept).head? = some c at first
      rw [rest, List.filter_cons_of_pos kept] at first
      obtain rfl := Option.some.inj first
      exact high

section Sibling

variable {address normal : String} {uri : Uri} {name : Text}

/-- The start of a path beside the path of a normal address. -/
theorem sibling_path (passed : normalize address = .ok normal)
    (read : parse normal.toList = .ok uri) (simple : IsSimple name) (none : uri.authority = []) :
    ¬ ['/', '/'] <+: Path.within (Path.folder uri.path) name := by
  have bare := path_of_normal passed read none
  have part := Path.folder_part uri.path
  have head := simple.head
  obtain ⟨tail, whole, joined⟩ := Path.within_eq (Path.folder uri.path) head
  rw [whole]
  generalize Path.folder uri.path = folder at part joined ⊢
  rintro ⟨rest, same⟩
  match folder with
  | [] =>
      rcases joined with rfl | ⟨-, some, -⟩
      · exact head (by rw [← List.nil_append tail, ← same]; rfl)
      · exact some rfl
  | [first] =>
      simp only [List.cons_append, List.nil_append, List.cons.injEq] at same
      rcases joined with rfl | ⟨-, -, open_⟩
      · exact head (by rw [← same.2]; rfl)
      · exact open_ (by rw [← same.1]; rfl)
  | first :: second :: others =>
      simp only [List.cons_append, List.nil_append, List.cons.injEq] at same
      refine bare (List.IsPrefix.trans ⟨others, ?_⟩ part)
      rw [← same.1, ← same.2.1]
      rfl

/-- No path of an address without a scheme starts with a scheme and its colon. -/
theorem no_scheme_in_path (read : parse normal.toList = .ok uri) (noScheme : uri.scheme = [])
    {scheme : Text} (isScheme : IsScheme scheme) : ¬ scheme ++ [':'] <+: uri.path := by
  intro part
  obtain ⟨after, tail, schemeRead, authority, path, -, -⟩ := parse_eq_ok read
  rw [path] at part
  obtain ⟨further, rfl⟩ := part.trans ((takeAfter_part _ _).trans (takeAfter_part _ _))
  rw [List.append_assoc, List.singleton_append] at authority
  rcases takeAuthority_eq_ok authority with ⟨-, whole, -⟩ | ⟨-, -, marked, -⟩
  · rcases takeScheme_cases (stripped normal.toList) with bare | ⟨other, _, isOther, -, taken⟩
    · rw [bare, ← whole] at schemeRead
      have written := (Prod.mk.inj schemeRead).2
      rw [written, takeScheme_append isScheme] at bare
      exact isScheme.ne_nil (List.map_eq_nil_iff.1 (Prod.mk.inj bare).1)
    · rw [taken, noScheme] at schemeRead
      exact isOther.ne_nil (List.map_eq_nil_iff.1 (Prod.mk.inj schemeRead).1)
  · cases scheme with
    | nil => exact isScheme.elim
    | cons c others =>
        have mark := marked c rfl
        rw [(of_isSchemeChar (isScheme.chars c List.mem_cons_self)).1] at mark
        cases mark

/-- Is the character none of those that end a scheme or a path? -/
def isRunning (c : Char) : Bool := c ≠ ':' && c ≠ '?' && c ≠ '#'

theorem isRunning_of_isPlain {c : Char} (plain : isPlain c = true) (other : c ≠ ':') :
    isRunning c = true := by
  simp_all [isRunning, isPlain]

/-- The colon of a scheme stands in the folder of a path when what follows the folder has none before
a mark. -/
theorem colon_mem_folder {folder tail marks scheme rest : Text} (isScheme : IsScheme scheme)
    (same : folder ++ (tail ++ marks) = scheme ++ ':' :: rest)
    (inFolder : ∀ c ∈ folder, c ≠ '?' ∧ c ≠ '#') (inTail : ∀ c ∈ tail, isRunning c = true)
    (head : ∀ c ∈ marks.head?, c = '?' ∨ c = '#') : ':' ∈ folder := by
  by_contra missing
  have before : ∀ c ∈ folder ++ tail, isRunning c = true := by
    intro c member
    rcases List.mem_append.1 member with here | there
    · have other : c ≠ ':' := fun colon => missing (colon ▸ here)
      simp [isRunning, inFolder c here, other]
    · exact inTail c there
  have named : ∀ c ∈ scheme, isRunning c = true := by
    intro c member
    have held := of_isSchemeChar (isScheme.chars c member)
    exact isRunning_of_isPlain held.1 held.2.1
  have ends : ∀ c ∈ marks.head?, isRunning c = false := by
    intro c first
    rcases head c first with rfl | rfl <;> decide
  have cut := congrArg (List.dropWhile isRunning) same
  rw [← List.append_assoc, Text.dropWhile_exact before ends,
    Text.dropWhile_exact named (by simp [isRunning])] at cut
  rcases head ':' (by rw [cut]; rfl) with colon | colon <;> cases colon

/-- What stands before the first colon is the scheme that the colon ends. -/
theorem eq_scheme_of_colon {before others scheme rest : Text} (isScheme : IsScheme scheme)
    (first : ':' ∉ before) (same : before ++ ':' :: others = scheme ++ ':' :: rest) :
    before = scheme := by
  have bare : ∀ c ∈ before, decide (c ≠ ':') = true := by
    intro c member
    simp only [decide_eq_true_eq]
    rintro rfl
    exact first member
  have schemeBare : ∀ c ∈ scheme, decide (c ≠ ':') = true := by
    intro c member
    simpa using (of_isSchemeChar (isScheme.chars c member)).2.1
  have cut := congrArg (List.takeWhile (· ≠ ':')) same
  rwa [Text.takeWhile_exact bare (by simp), Text.takeWhile_exact schemeBare (by simp)] at cut

/-- No scheme is read off a path beside the path of an address without a scheme. -/
theorem sibling_scheme (read : parse normal.toList = .ok uri) (simple : IsSimple name)
    (noScheme : uri.scheme = []) {scheme rest marks : Text}
    (isScheme : IsScheme scheme) (head : ∀ c ∈ marks.head?, c = '?' ∨ c = '#') :
    Path.within (Path.folder uri.path) name ++ marks ≠ scheme ++ ':' :: rest := by
  intro same
  have part := Path.folder_part uri.path
  obtain ⟨tail, whole, joined⟩ := Path.within_eq (Path.folder uri.path) simple.head
  rw [whole, List.append_assoc] at same
  have inFolder : ∀ c ∈ Path.folder uri.path, c ≠ '?' ∧ c ≠ '#' := fun c member =>
    (sound_of_parse read).path c (part.subset member)
  have inName : ∀ c ∈ name, isRunning c = true := fun c member =>
    isRunning_of_isPlain (simple.chars c member).1 (simple.chars c member).2.1
  have inTail : ∀ c ∈ tail, isRunning c = true := by
    intro c member
    rcases joined with rfl | ⟨rfl, -⟩
    · exact inName c member
    · rcases List.mem_cons.1 member with rfl | inside
      · decide
      · exact inName c inside
  have colon := colon_mem_folder isScheme same inFolder inTail head
  obtain ⟨before, others, split, first⟩ := List.eq_append_cons_of_mem colon
  rw [split, List.append_assoc, List.cons_append] at same
  obtain rfl := eq_scheme_of_colon isScheme first same
  refine no_scheme_in_path read noScheme isScheme (List.IsPrefix.trans ⟨others, ?_⟩ part)
  rw [split, List.append_assoc, List.singleton_append]

theorem mem_sibling {path : Text} (simple : IsSimple name) {c : Char}
    (member : c ∈ Path.within (Path.folder path) name) : c ∈ path ∨ c = '/' ∨ c ∈ name := by
  obtain ⟨end_, whole, joined⟩ := Path.within_eq (Path.folder path) simple.head
  rw [whole] at member
  rcases List.mem_append.1 member with inFolder | inEnd
  · exact .inl ((Path.folder_part path).subset inFolder)
  · rcases joined with rfl | ⟨rfl, -⟩
    · exact .inr (.inr inEnd)
    · exact .inr (List.mem_cons.1 inEnd)

theorem sibling_ne_nil {path : Text} (simple : IsSimple name) :
    Path.within (Path.folder path) name ≠ [] := by
  obtain ⟨end_, whole, joined⟩ := Path.within_eq (Path.folder path) simple.head
  rw [whole]
  rcases joined with rfl | ⟨rfl, -⟩ <;> simp [simple.nonempty]

/-- A path beside the path of an address without a scheme starts with no blank. -/
theorem sibling_head (read : parse normal.toList = .ok uri) (simple : IsSimple name)
    (noScheme : uri.scheme = []) {c : Char}
    (first : (Path.within (Path.folder uri.path) name).head? = some c) : 0x20 < c.toNat := by
  obtain ⟨end_, whole, joined⟩ := Path.within_eq (Path.folder uri.path) simple.head
  have part := Path.folder_part uri.path
  rw [whole] at first
  generalize Path.folder uri.path = folder at first joined part
  cases folder with
  | nil =>
      rcases joined with rfl | ⟨rfl, some, -⟩
      · exact (simple.chars c (List.mem_of_head? first)).2.2
      · exact absurd rfl some
  | cons d folder =>
      obtain rfl : d = c := by simpa using first
      obtain ⟨after, tail, scheme, authority, path, -, -⟩ := parse_eq_ok read
      have front : tail.head? = some d := by
        rw [path] at part
        obtain ⟨further, rfl⟩ := part.trans ((takeAfter_part _ _).trans (takeAfter_part _ _))
        rfl
      rcases takeAuthority_eq_ok authority with ⟨-, rfl, -⟩ | ⟨-, -, marked, -⟩
      · rcases takeScheme_cases (stripped normal.toList) with bare | ⟨other, _, isOther, -, taken⟩
        · rw [bare] at scheme
          rw [← (Prod.mk.inj scheme).2] at front
          exact head_of_stripped front
        · rw [taken, noScheme] at scheme
          exact absurd (List.map_eq_nil_iff.1 (Prod.mk.inj scheme).1) isOther.ne_nil
      · have mark := marked d front
        by_contra low
        rw [isPlain_of_low (by omega)] at mark
        cases mark

/-- What follows the scheme of a sibling's address can be read. -/
theorem sibling_authority (passed : normalize address = .ok normal)
    (read : parse normal.toList = .ok uri) (simple : IsSimple name) {other : Uri}
    (same : other = { uri with path := Path.within (Path.folder uri.path) name }) :
    ∃ taken, takeAuthority (other.body ++ other.marks) = .ok taken := by
  have sound := sound_of_parse read
  have path : other.path = Path.within (Path.folder uri.path) name := by rw [same]
  have authority : other.authority = uri.authority := by rw [same]
  have nonempty : Path.within (Path.folder uri.path) name ≠ [] := sibling_ne_nil simple
  unfold body
  split
  · generalize written : (if other.path ≠ [] && other.path.head? ≠ some '/' then '/' :: other.path
      else other.path) = rooted
    have slash : rooted.head? = some '/' := by
      rw [← written]
      split
      · rfl
      · rename_i starts
        rw [path] at starts ⊢
        simpa [nonempty] using starts
    have ends : ∀ c ∈ (rooted ++ other.marks).head?, isPlain c = false := by
      intro c first
      rw [List.head?_append, slash] at first
      obtain rfl : '/' = c := by simpa using first
      decide
    have taken := takeAuthority_append sound.authority ends sound.checked
    refine ⟨(uri.authority, rooted ++ other.marks), ?_⟩
    rw [authority, ← taken]
    simp only [List.cons_append, List.nil_append, List.append_assoc]
  · rename_i hidden
    have none : uri.authority = [] := by
      rw [← authority]
      simp only [showsAuthority, Bool.or_eq_true, decide_eq_true_eq, not_or, not_not] at hidden
      exact hidden.1
    refine ⟨_, takeAuthority_of_bare fun slashes => ?_⟩
    refine sibling_path passed read simple none ?_
    rw [← path]
    exact row_of_row_append (n := 2) (marks_head_ne_slash other) slashes

/-- The address of a sibling without a scheme starts with no blank. -/
theorem sibling_body_head (read : parse normal.toList = .ok uri) (simple : IsSimple name)
    (noScheme : uri.scheme = []) {other : Uri}
    (same : other = { uri with path := Path.within (Path.folder uri.path) name }) {c : Char}
    (first : (other.body ++ other.marks).head? = some c) : 0x20 < c.toNat := by
  have path : other.path = Path.within (Path.folder uri.path) name := by rw [same]
  rcases body_cases other with ⟨rest, slash⟩ | plain
  · rw [slash] at first
    obtain rfl : '/' = c := by simpa using first
    decide
  · rw [plain, path, List.head?_append_of_ne_nil _ (sibling_ne_nil simple)] at first
    exact sibling_head read simple noScheme first

theorem no_scheme_in_sibling (read : parse normal.toList = .ok uri) (simple : IsSimple name)
    (noScheme : uri.scheme = []) {other : Uri}
    (same : other = { uri with path := Path.within (Path.folder uri.path) name })
    {scheme rest : Text} (isScheme : IsScheme scheme) :
    other.body ++ other.marks ≠ scheme ++ ':' :: rest := by
  intro written
  have path : other.path = Path.within (Path.folder uri.path) name := by rw [same]
  rcases body_cases other with ⟨after, slash⟩ | plain
  · cases scheme with
    | nil => exact isScheme
    | cons c others =>
        rw [slash] at written
        obtain rfl : '/' = c := by simpa using (List.cons.inj written).1
        exact absurd (isScheme.chars '/' List.mem_cons_self) (by decide)
  · rw [plain, path] at written
    exact sibling_scheme read simple noScheme isScheme (marks_head other) written

/-- The scheme of a sibling's address is all that is taken off its start. -/
theorem sibling_takeScheme (read : parse normal.toList = .ok uri) (simple : IsSimple name)
    {other : Uri} (same : other = { uri with path := Path.within (Path.folder uri.path) name })
    (kept : ∀ c ∈ render other, isKept c = true) :
    (takeScheme (stripped (render other))).2 = other.body ++ other.marks := by
  have scheme : other.scheme = uri.scheme := by rw [same]
  rcases (sound_of_parse read).scheme with none | isScheme
  · have whole : render other = other.body ++ other.marks := by
      rw [render_eq, scheme, none]
      rfl
    have head : ∀ c ∈ (render other).head?, 0x20 < c.toNat := by
      intro c first
      rw [whole] at first
      exact sibling_body_head read simple none same first
    rw [stripped_eq_self kept head, whole]
    rcases takeScheme_cases (other.body ++ other.marks) with bare | ⟨_, _, isScheme, written, -⟩
    · rw [bare]
    · exact absurd written (no_scheme_in_sibling read simple none same isScheme)
  · have whole : render other = uri.scheme ++ ':' :: (other.body ++ other.marks) := by
      rw [render_eq, scheme, if_pos isScheme.ne_nil]
      simp
    have head : ∀ c ∈ (render other).head?, 0x20 < c.toNat := by
      intro c first
      rw [whole, List.head?_append_of_ne_nil _ isScheme.ne_nil] at first
      exact (of_isSchemeChar (isScheme.chars c (List.mem_of_head? first))).2.2.2.1
    rw [stripped_eq_self kept head, whole, takeScheme_append isScheme]

/-- The address of a sibling holds no tab or line break. -/
theorem kept_sibling (read : parse normal.toList = .ok uri) (simple : IsSimple name) {other : Uri}
    (same : other = { uri with path := Path.within (Path.folder uri.path) name }) :
    ∀ c ∈ render other, isKept c = true := by
  have sound := sound_of_parse read
  intro c member
  rcases mem_render member with mark | inScheme | inside
  · simp only [List.mem_cons, List.not_mem_nil, or_false] at mark
    rcases mark with rfl | rfl | rfl | rfl <;> decide
  · rw [same] at inScheme
    rcases sound.scheme with none | isScheme
    · simp [none] at inScheme
    · exact (of_isSchemeChar (isScheme.chars c inScheme)).2.2.1
  · have old := sound.kept c
    rw [same] at inside
    simp only [List.mem_append] at inside old
    rcases inside with ((there | there) | there) | there
    · exact old (.inl (.inl (.inl there)))
    · rcases mem_sibling simple there with there | rfl | there
      · exact old (.inl (.inl (.inr there)))
      · decide
      · exact isKept_of_high (simple.chars c there).2.2
    · exact old (.inl (.inr there))
    · exact old (.inr there)

/-- The address of a file beside one with a normal address can be read. -/
theorem exists_parse_sibling {file : String} (passed : normalize address = .ok normal)
    (read : parse normal.toList = .ok uri) (simple : IsSimple file.toList) :
    ∃ beside parts, sibling normal file = .ok beside ∧ parse beside.toList = .ok parts := by
  obtain ⟨other, same⟩ : ∃ other : Uri,
      other = { uri with path := Path.within (Path.folder uri.path) file.toList } := ⟨_, rfl⟩
  have made : sibling normal file = .ok (String.ofList (render other)) := by
    unfold sibling
    rw [read, same]
    rfl
  suffices ∃ parts, parse (render other) = .ok parts by
    obtain ⟨parts, again⟩ := this
    exact ⟨_, parts, made, by rwa [String.toList_ofList]⟩
  have kept := kept_sibling read simple same
  obtain ⟨taken, ok⟩ := sibling_authority passed read simple same
  exact exists_parse (by rw [sibling_takeScheme read simple same kept]; exact ok)

end Sibling

end Uri

end ChoiceScript
