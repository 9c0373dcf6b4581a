import ChoiceScript.Proofs.Uri.Authority
import ChoiceScript.Proofs.Uri.Sibling

/-! # Reading an address again

The parts of an address that is read can be put together and read again, unless the text in front is
taken for something else: the start of a path for an authority, for a scheme or for blanks, or a path
that gets a slash behind an authority.
-/

namespace ChoiceScript.Uri

variable {uri : Uri} {address : Text}

theorem normalize_of_parse {address : String} (read : parse address.toList = .ok uri) :
    normalize address = .ok (String.ofList (render uri.normalParts)) := by
  rw [normalize, read]
  rfl

theorem takeAfter_marked {mark : Char} {before after : Text} (absent : mark ∉ before) :
    takeAfter mark (before ++ marked mark after) = (before, after) := by
  have bare : ∀ c ∈ before, decide (c ≠ mark) = true := by
    intro c member
    simp only [decide_eq_true_eq]
    rintro rfl
    exact absent member
  cases after with
  | nil =>
      have none : ∀ c ∈ ([] : Text).head?, decide (c ≠ mark) = false := by simp
      rw [takeAfter, marked, Text.takeWhile_exact bare none, Text.dropWhile_exact bare none]
      rfl
  | cons c rest =>
      have ends : ∀ d ∈ (mark :: c :: rest).head?, decide (d ≠ mark) = false := by simp
      rw [takeAfter, marked, Text.takeWhile_exact bare ends, Text.dropWhile_exact bare ends]
      · rfl
      · simp

/-- An address is read part by part. -/
theorem parse_of_parts {after : Text}
    (scheme : takeScheme (stripped address) = (uri.scheme, after))
    (authority : takeAuthority after = .ok (uri.authority, uri.path ++ uri.marks))
    (path : ∀ c ∈ uri.path, c ≠ '?' ∧ c ≠ '#') (query : '#' ∉ uri.query) :
    parse address = .ok uri := by
  have noFragment : '#' ∉ uri.path ++ marked '?' uri.query := by
    intro member
    rcases List.mem_append.1 member with inPath | inQuery
    · exact (path _ inPath).2 rfl
    · rcases mem_marked inQuery with mark | inside
      · cases mark
      · exact query inside
  have fragment : takeAfter '#' (uri.path ++ (marked '?' uri.query ++ marked '#' uri.fragment)) =
      (uri.path ++ marked '?' uri.query, uri.fragment) := by
    rw [← List.append_assoc]
    exact takeAfter_marked noFragment
  have queried : takeAfter '?' (uri.path ++ marked '?' uri.query) = (uri.path, uri.query) :=
    takeAfter_marked fun member => (path _ member).1 rfl
  rw [parse, scheme]
  simp only [authority, Outcome.bind_ok, marks, fragment, queried]
  rfl

/-- What reading an address says of how its parts stand to each other. -/
structure Read (uri : Uri) : Prop where
  sound : uri.Sound
  small : uri.scheme.map Char.toLower = uri.scheme
  query : '#' ∉ uri.query
  rooted : uri.authority ≠ [] → ∀ c ∈ uri.path.head?, c = '/'

theorem toLower_toLower {c : Char} (ok : isSchemeChar c = true) : c.toLower.toLower = c.toLower :=
  Text.of_code (fun d => d.toLower.toLower = d.toLower) (by decide +kernel) (toNat_lt_of_isSchemeChar ok)

theorem read_of_parse (read : parse address = .ok uri) : uri.Read := by
  have sound := sound_of_parse read
  obtain ⟨after, rest, scheme, authority, path, query, -⟩ := parse_eq_ok read
  refine ⟨sound, ?_, ?_, fun some c first => ?_⟩
  · rcases takeScheme_cases (stripped address) with bare | ⟨name, _, isScheme, -, taken⟩
    · rw [bare] at scheme
      rw [← (Prod.mk.inj scheme).1]
      rfl
    · rw [taken] at scheme
      rw [← (Prod.mk.inj scheme).1, List.map_map]
      exact List.map_congr_left fun c member => toLower_toLower (isScheme.chars c member)
  · rw [query]
    exact fun member => not_mem_takeAfter _ _ (mem_of_mem_takeAfter member)
  · have marks := sound.path c (List.mem_of_head? first)
    rcases takeAuthority_eq_ok authority with ⟨none, -, -⟩ | ⟨-, -, ends, -⟩
    · exact absurd none some
    · have front : uri.path <+: rest := path ▸ (takeAfter_part _ _).trans (takeAfter_part _ _)
      obtain ⟨further, whole⟩ := front
      have mark := ends c (by rw [← whole, List.head?_append, Option.mem_def.1 first]; rfl)
      have unplain : ¬ isPlain c = true := by simp [mark]
      rcases eq_mark_of_not_isPlain unplain with slash | query | fragment
      · exact slash
      · exact absurd query marks.1
      · exact absurd fragment marks.2

theorem head?_normalPath {path : Text} (slash : path.head? = some '/') :
    (normalPath path).head? = some '/' := by
  obtain ⟨rest, whole, -⟩ := exists_normalPath_eq path
  have root := (Path.rootOf_ne_nil_iff path).1 slash
  have isRoot := Path.rootOf_mem_roots path
  simp only [Path.roots, List.mem_cons, List.not_mem_nil, or_false] at isRoot
  rw [whole]
  rcases isRoot with none | one | two
  · exact absurd none root
  · rw [one]
    rfl
  · rw [two]
    rfl

theorem Sound.normalParts (sound : uri.Sound) : uri.normalParts.Sound where
  scheme := sound.scheme
  authority := sound.normalParts_authority
  checked := checkAuthority_lower sound.checked
  path c member := by
    rcases mem_normalPath member with inside | rfl | rfl
    · exact sound.path c inside
    · decide
    · decide
  kept c member := by
    have kept := sound.kept c
    simp only [Uri.normalParts, List.mem_append] at member kept
    rcases member with ((inAuthority | inPath) | inQuery) | inFragment
    · by_contra lost
      have low : c.toNat < 64 ∧ c.toNat ≠ 0 := by
        rcases eq_break_of_not_isKept lost with rfl | rfl | rfl <;> decide
      exact lost (kept (.inl (.inl (.inl (Text.mem_of_mem_lower low.1 low.2 inAuthority)))))
    · rcases mem_normalPath inPath with inside | rfl | rfl
      · exact kept (.inl (.inl (.inr inside)))
      · decide
      · decide
    · exact kept (.inl (.inr inQuery))
    · exact kept (.inr inFragment)

theorem Read.normalParts (read : uri.Read) : uri.normalParts.Read where
  sound := read.sound.normalParts
  small := read.small
  query := read.query
  rooted given c first := by
    have rooted := read.rooted fun none => given (Text.lower_eq_nil_iff.2 none)
    cases path : uri.path with
    | nil => simp [Uri.normalParts, path, normalPath] at first
    | cons d rest =>
        have slash : uri.path.head? = some '/' := by
          rw [path, rooted d (by rw [path]; rfl)]
          rfl
        rw [show uri.normalParts.path = normalPath uri.path from rfl, head?_normalPath slash] at first
        exact (Option.some.inj first).symm

/-- Another path of the same characters, and of others that are no marks and are kept. -/
theorem Read.withPath {path : Text} (read : uri.Read)
    (chars : ∀ c ∈ path, c ∈ uri.path ∨ (c ≠ '?' ∧ c ≠ '#') ∧ Uri.isKept c = true)
    (rooted : uri.authority ≠ [] → ∀ c ∈ path.head?, c = '/') : Read { uri with path } where
  sound := by
    refine ⟨read.sound.scheme, read.sound.authority, read.sound.checked, fun c member => ?_,
      fun c member => ?_⟩
    · rcases chars c member with old | ⟨noMark, -⟩
      · exact read.sound.path c old
      · exact noMark
    · have kept := read.sound.kept c
      simp only [List.mem_append] at member kept
      rcases member with ((inAuthority | inPath) | inQuery) | inFragment
      · exact kept (.inl (.inl (.inl inAuthority)))
      · rcases chars c inPath with old | ⟨-, keeps⟩
        · exact kept (.inl (.inl (.inr old)))
        · exact keeps
      · exact kept (.inl (.inr inQuery))
      · exact kept (.inr inFragment)
  small := read.small
  query := read.query
  rooted := rooted

theorem normalParts_normalParts (uri : Uri) : uri.normalParts.normalParts = uri.normalParts := by
  simp only [normalParts, Text.lower_lower, normalPath_normalPath]

theorem Sound.isKept (sound : uri.Sound) : ∀ c ∈ render uri, isKept c = true := by
  intro c member
  rcases mem_render member with mark | inScheme | inside
  · simp only [List.mem_cons, List.not_mem_nil, or_false] at mark
    rcases mark with rfl | rfl | rfl | rfl <;> decide
  · rcases sound.scheme with none | isScheme
    · simp [none] at inScheme
    · exact (of_isSchemeChar (isScheme.chars c inScheme)).2.2.1
  · exact sound.kept c inside

theorem IsScheme.head {name rest : Text} (isScheme : IsScheme name) :
    ∀ c ∈ (name ++ rest).head?, isSchemeChar c = true := by
  intro c first
  rw [List.head?_append_of_ne_nil _ isScheme.ne_nil] at first
  exact isScheme.chars c (List.mem_of_head? first)

/-- Nothing is taken off the start of an address that has no scheme. -/
structure Unmarked (text : Text) : Prop where
  noScheme : takeScheme text = ([], text)
  visible : ∀ c ∈ text.head?, 0x20 < c.toNat

theorem unmarked_of_slash {text : Text} (slash : text.head? = some '/') : Unmarked text := by
  constructor
  · rcases takeScheme_cases text with bare | ⟨name, rest, isScheme, rfl, -⟩
    · exact bare
    · exact absurd (isScheme.head '/' slash) (by decide)
  · intro c first
    rw [slash] at first
    obtain rfl := Option.some.inj first
    decide

/-- The scheme is taken off an address that is put together. -/
theorem Read.takeScheme_render (read : uri.Read)
    (unmarked : uri.scheme = [] → Unmarked (uri.body ++ uri.marks)) :
    takeScheme (stripped (render uri)) = (uri.scheme, uri.body ++ uri.marks) := by
  have kept := read.sound.isKept
  rcases read.sound.scheme with none | isScheme
  · obtain ⟨noScheme, visible⟩ := unmarked none
    have whole : render uri = uri.body ++ uri.marks := by
      rw [render_eq, none]
      rfl
    rw [whole] at kept ⊢
    rw [stripped_eq_self kept visible, noScheme, none]
  · have whole : render uri = uri.scheme ++ ':' :: (uri.body ++ uri.marks) := by
      rw [render_eq, if_pos isScheme.ne_nil]
      simp
    have head : ∀ c ∈ (render uri).head?, 0x20 < c.toNat := by
      rw [whole]
      exact fun c first => (of_isSchemeChar (isScheme.head c first)).2.2.2.1
    rw [stripped_eq_self kept head, whole, takeScheme_append isScheme, read.small]

theorem isPlain_head_marks {path : Text} (rooted : ∀ c ∈ path.head?, c = '/') (uri : Uri) :
    ∀ c ∈ (path ++ uri.marks).head?, isPlain c = false := by
  intro c first
  cases path with
  | nil =>
      rcases marks_head uri c first with rfl | rfl <;> decide
  | cons d rest =>
      obtain rfl : d = c := by simpa using first
      rw [rooted d rfl]
      decide

theorem authority_of_hidden (hidden : uri.showsAuthority = false) : uri.authority = [] := by
  simp only [showsAuthority, Bool.or_eq_false_iff, decide_eq_false_iff_not, not_not] at hidden
  exact hidden.1

theorem body_of_hidden (hidden : uri.showsAuthority = false) : uri.body = uri.path := by
  simp [body, hidden]

theorem body_of_shown (shown : uri.showsAuthority = true) (rooted : ∀ c ∈ uri.path.head?, c = '/') :
    uri.body = '/' :: '/' :: (uri.authority ++ uri.path) := by
  cases path : uri.path with
  | nil => simp [body, shown, path]
  | cons c rest =>
      obtain rfl := rooted c (by rw [path]; rfl)
      simp [body, shown, path]

/-- What is put together is read as it was, where nothing in front of the path is taken for something
else. -/
theorem Read.parse_render (read : uri.Read)
    (unmarked : uri.scheme = [] → Unmarked (uri.body ++ uri.marks))
    (shown : uri.showsAuthority = true → ∀ c ∈ uri.path.head?, c = '/')
    (hidden : uri.showsAuthority = false → ¬ ['/', '/'] <+: uri.path) :
    parse (render uri) = .ok uri := by
  refine parse_of_parts (read.takeScheme_render unmarked) ?_ read.sound.path read.query
  cases shows : uri.showsAuthority with
  | true =>
      have ends := isPlain_head_marks (shown shows) uri
      rw [body_of_shown shows (shown shows), List.cons_append, List.cons_append, List.append_assoc]
      exact takeAuthority_append read.sound.authority ends read.sound.checked
  | false =>
      rw [body_of_hidden shows, authority_of_hidden shows]
      refine takeAuthority_of_bare fun slashes => hidden shows ?_
      exact row_of_row_append (n := 2) (marks_head_ne_slash uri) slashes

end ChoiceScript.Uri
