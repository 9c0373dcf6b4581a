import Mathlib.Data.List.Chain
import ChoiceScript.Proofs.Uri.Parts

/-! # Normal addresses

Small letters bring in no mark and no control character that was not there. In a normal path no
slash follows another but for the second of two at the start, so the first slash of a normal address
that no mark comes before starts no row of four. Read again, a normal address without an authority
has no path that starts with two slashes.
-/

namespace ChoiceScript

namespace Text

theorem toNat_of_mem_lowerChar {c d : Char} (member : d ∈ lowerChar c) :
    d = c ∨ 64 ≤ d.toNat ∨ d.toNat = 0 := by
  have capitals : ∀ run ∈ caseRuns, 64 ≤ (run.first : Int) + run.distance := by decide +kernel
  unfold lowerChar at member
  split at member
  · rename_i ascii
    obtain rfl := List.mem_singleton.1 member
    have lowered : c.toLower = c ∨ 64 ≤ c.toLower.toNat :=
      of_code (fun d => d.toLower = d ∨ 64 ≤ d.toLower.toNat) (by decide +kernel) ascii
    exact lowered.elim .inl fun high => .inr (.inl high)
  split at member
  · simp only [List.mem_cons, List.not_mem_nil, or_false] at member
    rcases member with rfl | rfl
    · exact .inr (.inl (by decide))
    · exact .inr (.inl (by decide))
  split at member
  · rename_i run found
    obtain rfl := List.mem_singleton.1 member
    have holds := List.find?_some found
    simp only [CaseRun.holds, Bool.and_eq_true, decide_eq_true_eq] at holds
    have := capitals run (List.mem_of_find?_eq_some found)
    generalize code : (c.toNat + run.distance).toNat = n
    have high : 64 ≤ n := by omega
    -- a code that no character has is that of the character with code zero
    by_cases valid : n.isValidChar
    · have same : Char.ofNat n = Char.ofNatAux n valid := dif_pos valid
      rw [same]
      exact .inr (.inl high)
    · have same : (Char.ofNat n).toNat = 0 := congrArg Char.toNat (dif_neg valid)
      exact .inr (.inr same)
  · exact .inl (List.mem_singleton.1 member)

/-- No control character or mark comes in with small letters. -/
theorem mem_of_mem_lower {text : Text} {d : Char} (low : d.toNat < 64) (visible : d.toNat ≠ 0)
    (member : d ∈ lower text) : d ∈ text := by
  suffices ∀ before, d ∈ lowerAfter before text → d ∈ text from this [] member
  clear member
  induction text with
  | nil => exact fun before member => member
  | cons c rest ih =>
      intro before member
      rcases List.mem_append.1 member with here | later
      · split at here
        · obtain rfl := List.mem_singleton.1 here
          exact absurd low (by decide)
        · rcases toNat_of_mem_lowerChar here with rfl | high | zero
          · exact List.mem_cons_self
          · omega
          · omega
      · exact List.mem_cons_of_mem _ (ih _ later)

theorem mem_joinWith {separator c : Char} {pieces : List Text}
    (member : c ∈ joinWith separator pieces) : c = separator ∨ ∃ piece ∈ pieces, c ∈ piece := by
  fun_induction joinWith separator pieces with
  | case1 => cases member
  | case2 piece => exact .inr ⟨piece, List.mem_cons_self, member⟩
  | case3 piece pieces _ ih =>
      simp only [List.mem_append, List.mem_cons] at member
      rcases member with here | rfl | later
      · exact .inr ⟨piece, List.mem_cons_self, here⟩
      · exact .inl rfl
      · exact (ih later).imp_right fun ⟨other, present, inside⟩ =>
          ⟨other, List.mem_cons_of_mem _ present, inside⟩

end Text

namespace Path

/-- One of two characters is no slash. -/
def Apart (c d : Char) : Prop := c = '/' → d ≠ '/'

/-- A name of a path holds something and no slash. -/
def IsName (name : Text) : Prop := name ≠ [] ∧ '/' ∉ name

theorem mem_step {rooted : Bool} {kept : List Text} {name part : Text}
    (member : part ∈ step rooted kept name) : part ∈ kept ∨ part = name ∧ name ≠ [] := by
  unfold step at member
  repeat' split at member
  all_goals simp_all
  all_goals grind

theorem names_of_splitOn {path name : Text} (member : name ∈ names path) :
    name ∈ Text.splitOn '/' path ∧ name ≠ [] := by
  suffices ∀ (rooted : Bool) (parts kept : List Text),
      name ∈ parts.foldl (step rooted) kept → name ∈ kept ∨ name ∈ parts ∧ name ≠ [] by
    rcases this _ _ [] (List.mem_reverse.1 member) with none | found
    · cases none
    · exact found
  intro rooted parts
  induction parts with
  | nil => exact fun kept there => .inl there
  | cons first rest ih =>
      intro kept there
      rcases ih _ there with old | ⟨later, nonempty⟩
      · rcases mem_step old with older | ⟨rfl, nonempty⟩
        · exact .inl older
        · exact .inr ⟨List.mem_cons_self, nonempty⟩
      · exact .inr ⟨List.mem_cons_of_mem _ later, nonempty⟩

theorem isName_of_mem_names {path name : Text} (member : name ∈ names path) : IsName name := by
  have found := names_of_splitOn member
  exact ⟨found.2, fun slash => (Text.of_mem_splitOn found.1 slash).1 rfl⟩

theorem IsName.chain {name : Text} (isName : IsName name) : name.IsChain Apart := by
  rw [List.isChain_iff_forall_rel_of_append_cons_cons]
  rintro c d before after rfl rfl
  exact absurd (by simp) isName.2

/-- Names with a slash between neighbours start and end with none. -/
theorem joinWith_chain {parts : List Text} (all : ∀ part ∈ parts, IsName part) :
    (Text.joinWith '/' parts).IsChain Apart ∧ (Text.joinWith '/' parts).head? ≠ some '/' ∧
      (Text.joinWith '/' parts).getLast? ≠ some '/' ∧
      (Text.joinWith '/' parts = [] → parts = []) := by
  fun_induction Text.joinWith '/' parts with
  | case1 => simp
  | case2 part =>
      have isName := all part List.mem_cons_self
      exact ⟨isName.chain, fun first => isName.2 (List.mem_of_head? first),
        fun last => isName.2 (List.mem_of_getLast? last), fun none => absurd none isName.1⟩
  | case3 part parts some ih =>
      have isName := all part List.mem_cons_self
      obtain ⟨chain, head, last, whole⟩ := ih fun other later => all other (List.mem_cons_of_mem _ later)
      have joined : ('/' :: Text.joinWith '/' parts).IsChain Apart := by
        refine List.isChain_cons.2 ⟨fun d first _ same => head ?_, chain⟩
        exact same ▸ first
      refine ⟨isName.chain.append joined ?_, ?_, ?_, by simp⟩
      · intro c final d _ slash
        exact absurd (slash ▸ List.mem_of_getLast? final) isName.2
      · rw [List.head?_append_of_ne_nil _ isName.1]
        exact fun first => isName.2 (List.mem_of_head? first)
      · have nonempty : Text.joinWith '/' parts ≠ [] := fun none => some (whole none)
        rwa [List.getLast?_append_of_ne_nil _ (List.cons_ne_nil _ _),
          List.getLast?_cons_of_ne_nil nonempty]

/-- But for a slash at the start, no slash of a normal path follows another. -/
theorem normalize_chain (path : Text) :
    ∃ rest, (normalize path = rest ∨ normalize path = '/' :: rest) ∧ rest.IsChain Apart := by
  obtain ⟨chain, head, -, -⟩ := joinWith_chain fun part (member : part ∈ names path) =>
    isName_of_mem_names member
  have slashed : ('/' :: Text.joinWith '/' (names path)).IsChain Apart :=
    List.isChain_cons.2 ⟨fun d first _ same => head (same ▸ first), chain⟩
  unfold normalize rootOf
  split
  · exact ⟨['.'], .inl rfl, by simp⟩
  · split
    · exact ⟨_, .inl rfl, slashed⟩
    · exact ⟨_, .inr rfl, slashed⟩
    · exact ⟨_, .inl rfl, slashed⟩
    · exact ⟨_, .inl rfl, chain⟩

end Path

namespace Uri

theorem normalPath_chain (path : Text) :
    ∃ rest, (normalPath path = rest ∨ normalPath path = '/' :: rest) ∧ rest.IsChain Path.Apart := by
  obtain ⟨rest, same, chain⟩ : ∃ rest,
      ((if path = [] then [] else Path.normalize path) = rest ∨
        (if path = [] then [] else Path.normalize path) = '/' :: rest) ∧
      rest.IsChain Path.Apart := by
    split
    · exact ⟨[], .inl rfl, .nil⟩
    · exact Path.normalize_chain path
  unfold normalPath
  dsimp only
  generalize (if path = [] then [] else Path.normalize path) = normal at same ⊢
  split
  · rename_i ends
    simp only [Bool.and_eq_true, decide_eq_true_eq] at ends
    have closed : (rest ++ ['/']).IsChain Path.Apart := by
      refine chain.append (by simp) fun c last d _ slash => ?_
      subst slash
      have final : normal.getLast? = some '/' := by
        rcases same with rfl | rfl
        · exact last
        · rw [List.getLast?_cons, last]
          rfl
      exact absurd final ends.2
    exact ⟨rest ++ ['/'], by rcases same with rfl | rfl <;> simp, closed⟩
  · exact ⟨rest, same, chain⟩

/-- A normal path holds no row of three slashes. -/
theorem no_row_in_normalPath (path : Text) : ¬ ['/', '/', '/'] <:+: normalPath path := by
  obtain ⟨rest, same, chain⟩ := normalPath_chain path
  intro row
  have pair : ['/', '/'] <:+: rest := by
    rcases same with same | same
    · rw [same] at row
      exact (List.infix_append [] ['/', '/'] ['/']).trans row
    · rw [same, List.infix_cons_iff, List.cons_prefix_cons] at row
      rcases row with ⟨-, front⟩ | inside
      · exact front.isInfix
      · exact (List.infix_append [] ['/', '/'] ['/']).trans inside
  have apart := chain.infix pair
  simp [Path.Apart] at apart

theorem mem_normalize {path : Text} {c : Char} (member : c ∈ Path.normalize path) :
    c ∈ path ∨ c = '/' ∨ c = '.' := by
  have root : c ∈ Path.rootOf path → c = '/' := by
    intro inside
    unfold Path.rootOf at inside
    split at inside <;> simp_all
  have named : c ∈ Text.joinWith '/' (Path.names path) → c ∈ path ∨ c = '/' := by
    intro inside
    rcases Text.mem_joinWith inside with slash | ⟨name, present, within⟩
    · exact .inr slash
    · exact .inl (Text.of_mem_splitOn (Path.names_of_splitOn present).1 within).2
  unfold Path.normalize at member
  split at member
  · exact .inr (.inr (List.mem_singleton.1 member))
  · rcases List.mem_append.1 member with inside | inside
    · exact .inr (.inl (root inside))
    · exact (named inside).imp_right .inl

theorem mem_normalPath {path : Text} {c : Char} (member : c ∈ normalPath path) :
    c ∈ path ∨ c = '/' ∨ c = '.' := by
  have normal : c ∈ (if path = [] then [] else Path.normalize path) →
      c ∈ path ∨ c = '/' ∨ c = '.' := by
    intro inside
    split at inside
    · cases inside
    · exact mem_normalize inside
  unfold normalPath at member
  dsimp only at member
  generalize (if path = [] then [] else Path.normalize path) = before at normal member
  split at member
  · rcases List.mem_append.1 member with inside | slash
    · exact normal inside
    · exact .inr (.inl (List.mem_singleton.1 slash))
  · exact normal member

/-- What stands between the scheme and the query of an address. -/
def body (uri : Uri) : Text :=
  if uri.showsAuthority then
    ['/', '/'] ++ uri.authority ++
      if uri.path ≠ [] && uri.path.head? ≠ some '/' then '/' :: uri.path else uri.path
  else uri.path

/-- A body starts with two slashes or is the path. -/
theorem body_cases (uri : Uri) : (∃ rest, uri.body = '/' :: rest) ∨ uri.body = uri.path := by
  unfold body
  split
  · exact .inl ⟨_, by simp only [List.cons_append, List.nil_append]; rfl⟩
  · exact .inr rfl

/-- The query and fragment of an address with their marks. -/
def marks (uri : Uri) : Text := marked '?' uri.query ++ marked '#' uri.fragment

theorem render_eq (uri : Uri) :
    render uri = (if uri.scheme ≠ [] then uri.scheme ++ [':'] else []) ++ (uri.body ++ uri.marks) := by
  simp only [render, body, marks, List.append_assoc]

theorem marks_head (uri : Uri) : ∀ c ∈ uri.marks.head?, c = '?' ∨ c = '#' := by
  unfold marks marked
  cases uri.query with
  | cons c rest => simp
  | nil =>
      cases uri.fragment with
      | nil => simp
      | cons c rest => simp

theorem marks_head_ne_slash (uri : Uri) : uri.marks.head? ≠ some '/' := by
  intro slash
  rcases marks_head uri '/' slash with same | same <;> cases same

theorem dropWhile_marks (uri : Uri) : uri.marks.dropWhile isPlain = uri.marks := by
  have head := marks_head uri
  cases same : uri.marks with
  | nil => rfl
  | cons c rest =>
      rw [same] at head
      have marked : isPlain c = false := by rcases head c rfl with rfl | rfl <;> decide
      rw [List.dropWhile_cons_of_neg (by simp [marked])]

/-- A row of slashes at the start of a text does not reach into what follows, unless that starts with
a slash. -/
theorem row_of_row_append {n : Nat} {text rest : Text} (head : rest.head? ≠ some '/')
    (row : List.replicate n '/' <+: text ++ rest) : List.replicate n '/' <+: text := by
  induction n generalizing text with
  | zero => exact List.nil_prefix
  | succ n ih =>
      cases text with
      | nil =>
          rw [List.nil_append, List.replicate_succ] at row
          obtain ⟨after, same⟩ := row
          rw [← same] at head
          exact absurd rfl head
      | cons c text =>
          rw [List.replicate_succ, List.cons_append, List.cons_prefix_cons] at row
          rw [List.replicate_succ, List.cons_prefix_cons]
          exact ⟨row.1, ih row.2⟩

theorem isPlain_of_mem_schemePart {uri : Uri} (scheme : uri.scheme = [] ∨ IsScheme uri.scheme) :
    ∀ c ∈ (if uri.scheme ≠ [] then uri.scheme ++ [':'] else []), isPlain c = true := by
  intro c member
  split at member
  · rename_i some
    rcases List.mem_append.1 member with inside | colon
    · exact (of_isSchemeChar ((scheme.resolve_left some).chars c inside)).1
    · rw [List.mem_singleton.1 colon]
      decide
  · cases member

/-- No row of four slashes starts at the first mark of an address that is put together. -/
theorem no_row_in_render {uri : Uri} (scheme : uri.scheme = [] ∨ IsScheme uri.scheme)
    (authority : ∀ c ∈ uri.authority, isPlain c = true)
    (noRow : ¬ List.replicate 3 '/' <:+: uri.path) :
    ¬ List.replicate 4 '/' <+: (render uri).dropWhile isPlain := by
  rw [render_eq, List.dropWhile_append_of_pos (isPlain_of_mem_schemePart scheme)]
  intro row
  unfold body at row
  split at row
  · rename_i shown
    have inside : List.replicate 2 '/' <+:
        uri.authority ++ ((if uri.path ≠ [] && uri.path.head? ≠ some '/' then '/' :: uri.path
          else uri.path) ++ uri.marks) := by
      rw [List.append_assoc, List.append_assoc] at row
      simpa [isPlain, List.replicate_succ] using row
    cases known : uri.authority with
    | cons c others =>
        rw [known, List.cons_append, List.replicate_succ, List.cons_prefix_cons] at inside
        have plain := authority c (by simp [known])
        rw [← inside.1] at plain
        cases plain
    | nil =>
        rw [known, List.nil_append] at inside
        have front := row_of_row_append (marks_head_ne_slash uri) inside
        split at front
        · rename_i rooted
          simp only [Bool.and_eq_true, decide_eq_true_eq] at rooted
          rw [List.replicate_succ, List.cons_prefix_cons] at front
          obtain ⟨rest, same⟩ := front.2
          exact rooted.2 (by rw [← same]; rfl)
        · have hidden : uri.path.take 2 = ['/', '/'] := (List.prefix_iff_eq_take.1 front).symm
          simp [showsAuthority, known, hidden] at shown
  · rw [List.dropWhile_append] at row
    split at row
    · rw [dropWhile_marks] at row
      obtain ⟨rest, same⟩ := row
      exact marks_head_ne_slash uri (by rw [← same]; rfl)
    · have front := row_of_row_append (marks_head_ne_slash uri) row
      have short : List.replicate 3 '/' <+: List.replicate 4 '/' := ⟨['/'], rfl⟩
      exact noRow ((short.trans front).isInfix.trans (List.dropWhile_suffix _).isInfix)

/-- The parts of an address, with the authority in small letters and a normal path. -/
def normalParts (uri : Uri) : Uri :=
  { uri with authority := Text.lower uri.authority, path := normalPath uri.path }

theorem normalize_eq_ok {address normal : String} (passed : normalize address = .ok normal) :
    ∃ uri, parse address.toList = .ok uri ∧ normal.toList = render uri.normalParts := by
  obtain ⟨uri, read, same⟩ := Outcome.bind_eq_ok passed
  obtain rfl := Except.ok.inj same
  exact ⟨uri, read, String.toList_ofList⟩

theorem Sound.normalParts_authority {uri : Uri} (sound : uri.Sound) :
    ∀ c ∈ uri.normalParts.authority, isPlain c = true := by
  intro c member
  by_contra mark
  have low : c.toNat < 64 ∧ c.toNat ≠ 0 := by
    rcases eq_mark_of_not_isPlain mark with rfl | rfl | rfl <;> decide
  exact mark (sound.authority c (Text.mem_of_mem_lower low.1 low.2 member))

theorem mem_marked {mark c : Char} {text : Text} (member : c ∈ marked mark text) :
    c = mark ∨ c ∈ text := by
  cases text with
  | nil => cases member
  | cons first rest => exact List.mem_cons.1 member

/-- An address is put together from its parts and the marks between them. -/
theorem mem_render {uri : Uri} {c : Char} (member : c ∈ render uri) :
    c ∈ [':', '/', '?', '#'] ∨ c ∈ uri.scheme ∨
      c ∈ uri.authority ++ uri.path ++ uri.query ++ uri.fragment := by
  rw [render_eq] at member
  rcases List.mem_append.1 member with inScheme | inside
  · split at inScheme
    · rcases List.mem_append.1 inScheme with there | colon
      · exact .inr (.inl there)
      · simp [List.mem_singleton.1 colon]
    · cases inScheme
  rcases List.mem_append.1 inside with inBody | inMarks
  · unfold body at inBody
    split at inBody
    · split at inBody <;> simp at inBody <;> grind
    · simp [inBody]
  · rcases List.mem_append.1 inMarks with there | there
    · rcases mem_marked there with rfl | here
      · simp
      · simp [here]
    · rcases mem_marked there with rfl | here
      · simp
      · simp [here]

/-- No part of a normal address holds a tab or a line break. -/
theorem Sound.kept_render {uri : Uri} (sound : uri.Sound) :
    ∀ c ∈ render uri.normalParts, isKept c = true := by
  intro c member
  by_contra lost
  have low : c.toNat < 64 ∧ c.toNat ≠ 0 := by
    rcases eq_break_of_not_isKept lost with rfl | rfl | rfl <;> decide
  have kept : c ∉ uri.authority ++ uri.path ++ uri.query ++ uri.fragment :=
    fun present => lost (sound.kept c present)
  simp only [List.mem_append, not_or] at kept
  rcases mem_render member with mark | inScheme | inside
  · simp only [List.mem_cons, List.not_mem_nil, or_false] at mark
    rcases mark with rfl | rfl | rfl | rfl <;> exact absurd (by decide) lost
  · rcases sound.scheme with none | isScheme
    · rw [show uri.normalParts.scheme = uri.scheme from rfl, none] at inScheme
      cases inScheme
    · exact lost (of_isSchemeChar (isScheme.chars c inScheme)).2.2.1
  · simp only [normalParts, List.mem_append] at inside
    rcases inside with ((there | there) | there) | there
    · exact kept.1.1.1 (Text.mem_of_mem_lower low.1 low.2 there)
    · rcases mem_normalPath there with there | rfl | rfl
      · exact kept.1.1.2 there
      · exact absurd (by decide) lost
      · exact absurd (by decide) lost
    · exact kept.1.2 there
    · exact kept.2 there

theorem stripped_of_kept {text : Text} (kept : ∀ c ∈ text, isKept c = true) :
    ∃ low, text = low ++ stripped text ∧ ∀ c ∈ low, c.toNat ≤ 0x20 := by
  refine ⟨text.takeWhile (·.toNat ≤ 0x20), ?_, fun c member => ?_⟩
  · have whole : stripped text = text.dropWhile (·.toNat ≤ 0x20) := by
      apply List.filter_eq_self.2
      intro c member
      exact kept c ((List.dropWhile_suffix _).subset member)
    rw [whole, List.takeWhile_append_dropWhile]
  · have := List.all_eq_true.1 List.all_takeWhile c member
    simpa using this

theorem isPlain_of_low {c : Char} (low : c.toNat ≤ 0x20) : isPlain c = true := by
  by_contra mark
  rcases eq_mark_of_not_isPlain mark with rfl | rfl | rfl <;> exact absurd low (by decide)

/-- No mark stands in what is taken off for a scheme. -/
theorem exists_plain_of_takeScheme (text : Text) :
    ∃ plain, text = plain ++ (takeScheme text).2 ∧ ∀ c ∈ plain, isPlain c = true := by
  rcases takeScheme_cases text with bare | ⟨name, rest, isScheme, written, taken⟩
  · rw [bare]
    exact ⟨[], rfl, by simp⟩
  · rw [taken]
    refine ⟨name ++ [':'], by simp [written], fun c member => ?_⟩
    rcases List.mem_append.1 member with inside | colon
    · exact (of_isSchemeChar (isScheme.chars c inside)).1
    · rw [List.mem_singleton.1 colon]
      decide

/-- Read again, a normal address without an authority has no path that starts with two slashes. -/
theorem path_of_normal {address normal : String} {uri : Uri}
    (passed : normalize address = .ok normal) (read : parse normal.toList = .ok uri)
    (none : uri.authority = []) : ¬ ['/', '/'] <+: uri.path := by
  intro slashes
  obtain ⟨parts, readFirst, same⟩ := normalize_eq_ok passed
  have sound := sound_of_parse readFirst
  have noRow : ¬ List.replicate 4 '/' <+: (render parts.normalParts).dropWhile isPlain :=
    no_row_in_render sound.scheme sound.normalParts_authority (no_row_in_normalPath parts.path)
  obtain ⟨low, whole, control⟩ := stripped_of_kept sound.kept_render
  rw [← same] at noRow whole
  obtain ⟨after, rest, scheme, authority, path, -, -⟩ := parse_eq_ok read
  have front : ['/', '/'] <+: rest := by
    rw [path] at slashes
    exact slashes.trans ((takeAfter_part _ _).trans (takeAfter_part _ _))
  have row : List.replicate 4 '/' <+: after := by
    rcases takeAuthority_eq_ok authority with ⟨-, rfl, bare⟩ | ⟨written, -, -, -⟩
    · exact absurd front bare
    · rw [written, none, List.nil_append]
      obtain ⟨tail, rfl⟩ := front
      exact ⟨tail, rfl⟩
  obtain ⟨plain, split, allPlain⟩ := exists_plain_of_takeScheme (stripped normal.toList)
  rw [scheme] at split
  refine noRow ?_
  rw [whole, split, List.dropWhile_append_of_pos fun c member => isPlain_of_low (control c member),
    List.dropWhile_append_of_pos allPlain]
  obtain ⟨tail, rfl⟩ := row
  exact ⟨tail, by rfl⟩

end Uri

end ChoiceScript
