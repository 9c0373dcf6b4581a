import ChoiceScript.Proofs.Uri.Rereading

/-! # Which normal addresses stay

A normal address is its own normal form unless, read again, what stands in front of its path is taken for
something else. Two slashes are taken for those of an authority, behind which a name of the path is the
host; a path that is put behind an authority gets a slash; and without a scheme the start of a path may be
taken for blanks or for a scheme.
-/

namespace ChoiceScript.Uri

/-- Have addresses of the scheme an authority, be it an empty one? -/
def isShown (scheme : Text) : Bool := authoritySchemes.contains (String.ofList scheme)

/-- Nothing in front of a path without an authority is taken for something else, or what it is taken for is
written in the same way. -/
structure Steady (uri : Uri) : Prop where
  host : uri.authority = [] → ∀ host rest, uri.path = '/' :: '/' :: (host ++ rest) → '/' ∉ host →
    (∀ c ∈ rest.head?, c = '/') → if host = [] then isShown uri.scheme = true
      else checkAuthority host = .ok () ∧ Text.lower host = host
  rooted : uri.authority = [] → isShown uri.scheme = true → uri.path ≠ [] → uri.path.head? ≠ some '/' →
    normalPath ('/' :: uri.path) = '/' :: uri.path
  visible : uri.authority = [] → uri.scheme = [] → ∀ c ∈ uri.path.head?, 0x20 < c.toNat
  scheme : uri.authority = [] → uri.scheme = [] → ∀ name rest, IsScheme name →
    uri.path = name ++ ':' :: rest →
      name.map Char.toLower = name ∧ isShown name = false ∧ normalPath rest = rest

variable {uri other : Uri} {host rest : Text}

/-- An address is its own normal form. -/
def IsFixed (uri : Uri) : Prop := normalize (String.ofList (render uri)) = .ok (String.ofList (render uri))

theorem isFixed_iff (again : parse (render uri) = .ok other) :
    uri.IsFixed ↔ render other.normalParts = render uri := by
  rw [IsFixed, normalize_of_parse (by rw [String.toList_ofList, again]), Except.ok.injEq]
  exact ⟨fun same => by simpa using congrArg String.toList same, fun same => by rw [same]⟩

theorem isFixed_of_parse (normal : uri.normalParts = uri) (again : parse (render uri) = .ok uri) :
    uri.IsFixed :=
  (isFixed_iff again).2 (by rw [normal])

theorem IsFixed.exists_parse (fixed : uri.IsFixed) :
    ∃ other, parse (render uri) = .ok other ∧ render other.normalParts = render uri := by
  obtain ⟨other, read, same⟩ := normalize_eq_ok fixed
  rw [String.toList_ofList] at read same
  exact ⟨other, read, same.symm⟩

theorem render_inj_iff (scheme : other.scheme = uri.scheme) (marks : other.marks = uri.marks) :
    render other = render uri ↔ other.body = uri.body := by
  rw [render_eq, render_eq, scheme, marks, List.append_cancel_left_eq, List.append_cancel_right_eq]

theorem normalParts_of_normal (normal : uri.normalParts = uri) {scheme path : Text} :
    Uri.normalParts { uri with scheme, path } = { uri with scheme, path := normalPath path } := by
  rw [normalParts, show Text.lower uri.authority = uri.authority from congrArg Uri.authority normal]

theorem append_colon_inj {name other front behind marks : Text} (same : name.length = other.length) :
    name ++ ':' :: (front ++ marks) = other ++ ':' :: (behind ++ marks) ↔ name = other ∧ front = behind := by
  refine ⟨fun whole => ?_, fun ⟨first, then_⟩ => by rw [first, then_]⟩
  obtain ⟨first, then_⟩ := List.append_inj whole same
  exact ⟨first, List.append_cancel_right (List.cons.inj then_).2⟩

theorem not_slashes_of_head {path : Text} (head : path.head? ≠ some '/') : ¬ ['/', '/'] <+: path := by
  rintro ⟨tail, rfl⟩
  exact head rfl

theorem not_slashes_of_second {path : Text} (head : path.head? ≠ some '/') :
    ¬ ['/', '/'] <+: '/' :: path := by
  rintro ⟨tail, whole⟩
  rw [← (List.cons.inj whole).2] at head
  exact head rfl

theorem exists_host {path : Text} (slashes : ['/', '/'] <+: path) :
    ∃ host rest, path = '/' :: '/' :: (host ++ rest) ∧ '/' ∉ host ∧ ∀ c ∈ rest.head?, c = '/' := by
  obtain ⟨after, rfl⟩ := slashes
  refine ⟨after.takeWhile (· ≠ '/'), after.dropWhile (· ≠ '/'), ?_, fun member => ?_, fun c first => ?_⟩
  · rw [List.takeWhile_append_dropWhile]
    rfl
  · simpa using List.all_eq_true.1 List.all_takeWhile '/' member
  · have stops := List.head?_dropWhile_not (· ≠ '/') after
    rw [Option.mem_def.1 first] at stops
    simpa using stops

theorem shows_iff (none : uri.authority = []) :
    uri.showsAuthority = true ↔ isShown uri.scheme = true ∧ ¬ ['/', '/'] <+: uri.path := by
  have front : ['/', '/'] <+: uri.path ↔ uri.path.take 2 = ['/', '/'] :=
    List.prefix_iff_eq_take.trans eq_comm
  simp [showsAuthority, none, isShown, front]

theorem hides_of_slashes (none : uri.authority = []) (slashes : ['/', '/'] <+: uri.path) :
    uri.showsAuthority = false := by
  rw [← Bool.not_eq_true, shows_iff none]
  exact fun shown => shown.2 slashes

theorem hides_of_scheme (none : uri.authority = []) (hidden : ¬ isShown uri.scheme = true) :
    uri.showsAuthority = false := by
  rw [← Bool.not_eq_true, shows_iff none]
  exact fun shown => hidden shown.1

theorem isPlain_of_host (plain : '/' ∉ host) (marks : ∀ c ∈ host, c ≠ '?' ∧ c ≠ '#') :
    ∀ c ∈ host, isPlain c = true := by
  intro c member
  by_contra mark
  rcases eq_mark_of_not_isPlain mark with rfl | rfl | rfl
  · exact plain member
  · exact (marks _ member).1 rfl
  · exact (marks _ member).2 rfl

/-- A name that is read off the start of a path is the host that stands there. -/
theorem host_unique {authority tail : Text} (plain : '/' ∉ host) (marks : ∀ c ∈ host, c ≠ '?' ∧ c ≠ '#')
    (ends : ∀ c ∈ rest.head?, isPlain c = false) (others : ∀ c ∈ authority, isPlain c = true)
    (stops : ∀ c ∈ tail.head?, isPlain c = false) (same : host ++ rest = authority ++ tail) :
    host = authority := by
  have first := congrArg (List.takeWhile isPlain) same
  rwa [Text.takeWhile_exact (isPlain_of_host plain marks) ends, Text.takeWhile_exact others stops] at first

theorem shows_root (none : uri.authority = []) (shown : isShown uri.scheme = true)
    (head : rest.head? ≠ some '/') : Uri.showsAuthority { uri with path := '/' :: rest } = true := by
  rw [shows_iff (by exact none)]
  exact ⟨shown, not_slashes_of_second head⟩

theorem body_of_root (none : uri.authority = []) (shown : isShown uri.scheme = true)
    (head : rest.head? ≠ some '/') : body { uri with path := '/' :: rest } = '/' :: '/' :: '/' :: rest := by
  rw [body_of_shown (shows_root none shown head) (by simp), none]
  rfl

theorem body_of_relative (none : uri.authority = []) (shown : isShown uri.scheme = true)
    (given : uri.path ≠ []) (relative : uri.path.head? ≠ some '/') :
    uri.body = '/' :: '/' :: '/' :: uri.path := by
  have shows := (shows_iff none).2 ⟨shown, not_slashes_of_head relative⟩
  simp [body, shows, none, given, relative]

theorem Read.parse_render_shown (read : uri.Read) (shows : uri.showsAuthority = true)
    (rooted : ∀ c ∈ uri.path.head?, c = '/') : parse (render uri) = .ok uri := by
  refine read.parse_render (fun _ => unmarked_of_slash ?_) (fun _ => rooted) ?_
  · rw [body_of_shown shows rooted]
    rfl
  · rw [shows]
    exact fun hidden => by cases hidden

/-- Behind one slash, a normal path goes on with no other. -/
theorem exists_normalPath_root (head : rest.head? ≠ some '/') :
    ∃ tail, normalPath ('/' :: rest) = '/' :: tail ∧ tail.head? ≠ some '/' := by
  obtain ⟨tail, whole, start⟩ := exists_normalPath_eq ('/' :: rest)
  have isRoot : ['/'] ∈ Path.roots := by simp [Path.roots]
  have root : Path.rootOf ('/' :: rest) = ['/'] := Path.rootOf_append isRoot head
  exact ⟨tail, by rw [whole, root]; rfl, start⟩

/-- A path behind an empty authority gets a slash. -/
theorem Read.parse_render_relative (read : uri.Read) (none : uri.authority = [])
    (shown : isShown uri.scheme = true) (given : uri.path ≠ []) (relative : uri.path.head? ≠ some '/') :
    parse (render uri) = .ok { uri with path := '/' :: uri.path } := by
  have slash : ∀ c ∈ ('/' :: uri.path).head?, c = '/' := by simp
  have rooted : Read { uri with path := '/' :: uri.path } := by
    refine read.withPath (fun c member => ?_) fun _ => slash
    rcases List.mem_cons.1 member with rfl | inPath
    · exact .inr (by decide)
    · exact .inl inPath
  have bodies : body { uri with path := '/' :: uri.path } = uri.body := by
    rw [body_of_root none shown relative, body_of_relative none shown given relative]
  have renders : render { uri with path := '/' :: uri.path } = render uri :=
    (render_inj_iff (by rfl) (by rfl)).2 bodies
  rw [← renders]
  exact rooted.parse_render_shown (shows_root none shown relative) slash

theorem hides_of_bare (none : uri.authority = []) (noScheme : uri.scheme = []) :
    uri.showsAuthority = false :=
  hides_of_scheme none (by rw [noScheme]; decide)

theorem render_of_bare (none : uri.authority = []) (noScheme : uri.scheme = []) :
    render uri = uri.path ++ uri.marks := by
  rw [render_eq, body_of_hidden (hides_of_bare none noScheme), noScheme]
  rfl

theorem count_takeAfter_le (c mark : Char) (text : Text) :
    (takeAfter mark text).1.count c + (takeAfter mark text).2.count c ≤ text.count c := by
  conv => rhs; rw [← List.takeWhile_append_dropWhile (p := (· ≠ mark)) (l := text), List.count_append]
  exact Nat.add_le_add_left ((List.drop_sublist 1 _).count_le c) _

theorem count_marked {c mark : Char} (other : c ≠ mark) (text : Text) :
    (marked mark text).count c = text.count c := by
  cases text with
  | nil => rfl
  | cons d rest => exact List.count_cons_of_ne other.symm

/-- What is no mark is in the parts of an address at most as often as in the address. -/
theorem count_le_of_parse {c : Char} {address : Text} (noQuery : c ≠ '?') (noFragment : c ≠ '#')
    (read : parse address = .ok uri) : (uri.path ++ uri.marks).count c ≤ (stripped address).count c := by
  obtain ⟨after, rest, scheme, authority, path, query, fragment⟩ := parse_eq_ok read
  have queried := count_takeAfter_le c '?' (takeAfter '#' rest).1
  have parted := count_takeAfter_le c '#' rest
  rw [← path, ← query] at queried
  rw [← fragment] at parted
  have behind : rest.count c ≤ after.count c := by
    rcases takeAuthority_eq_ok authority with ⟨-, rfl, -⟩ | ⟨rfl, -⟩
    · rfl
    · simp only [List.count_cons, List.count_append]
      omega
  have front : after.count c ≤ (stripped address).count c := by
    obtain ⟨plain, whole, -⟩ := exists_plain_of_takeScheme (stripped address)
    rw [scheme] at whole
    rw [whole, List.count_append]
    exact Nat.le_add_left _ _
  rw [marks, List.count_append, List.count_append, count_marked noQuery, count_marked noFragment]
  omega

/-- What starts with a blank has neither a scheme nor an authority in front. -/
theorem bare_of_blank {c : Char} (scheme : uri.scheme = [] ∨ IsScheme uri.scheme)
    (first : (render uri).head? = some c) (blank : ¬ 0x20 < c.toNat) :
    uri.scheme = [] ∧ uri.showsAuthority = false := by
  have noScheme : uri.scheme = [] := by
    refine scheme.resolve_right fun isScheme => ?_
    obtain ⟨d, others, name⟩ := List.exists_cons_of_ne_nil isScheme.ne_nil
    rw [render_eq, if_pos isScheme.ne_nil, name] at first
    obtain rfl : d = c := Option.some.inj first
    exact blank (of_isSchemeChar (isScheme.chars d (by simp [name]))).2.2.2.1
  refine ⟨noScheme, ?_⟩
  rw [← Bool.not_eq_true]
  intro shows
  rw [render_eq, noScheme, body, if_pos shows] at first
  obtain rfl : '/' = c := Option.some.inj first
  exact blank (by decide)

/-- Blanks in front of a path are lost. -/
theorem visible_of_isFixed (fixed : uri.IsFixed) (none : uri.authority = []) (noScheme : uri.scheme = []) :
    ∀ c ∈ uri.path.head?, 0x20 < c.toNat := by
  intro c first
  by_contra low
  obtain ⟨other, again, same⟩ := fixed.exists_parse
  obtain ⟨tail, path⟩ := List.head?_eq_some_iff.1 first
  rw [render_of_bare none noScheme, path] at same again
  have scheme : other.normalParts.scheme = [] ∨ IsScheme other.normalParts.scheme :=
    (sound_of_parse again).scheme
  obtain ⟨otherScheme, hidden⟩ := bare_of_blank scheme (by rw [same]; rfl) low
  rw [render_of_bare (authority_of_hidden hidden) otherScheme] at same
  have noMark : c ≠ '/' ∧ c ≠ '.' ∧ c ≠ '?' ∧ c ≠ '#' := by
    refine ⟨?_, ?_, ?_, ?_⟩ <;> rintro rfl <;> exact low (by decide)
  have counted := congrArg (List.count c) same
  have path := count_normalPath_le noMark.1 noMark.2.1 other.path
  have parts := count_le_of_parse noMark.2.2.1 noMark.2.2.2 again
  have fewer : (stripped (c :: tail ++ uri.marks)).count c ≤ (tail ++ uri.marks).count c := by
    refine (List.filter_sublist.trans ?_).count_le c
    rw [List.cons_append, List.dropWhile_cons_of_pos (by simpa using low)]
    exact (List.dropWhile_suffix _).sublist
  have one : (c :: tail ++ uri.marks).count c = (tail ++ uri.marks).count c + 1 := List.count_cons_self
  have marks : other.normalParts.marks = other.marks := rfl
  rw [one, List.count_append, marks] at counted
  rw [List.count_append] at parts
  have here : other.normalParts.path = normalPath other.path := rfl
  rw [here] at counted
  omega

/-- No slash of a normal path follows another but at the start. -/
theorem not_slashes_of_normal (normal : normalPath uri.path = uri.path)
    (start : uri.path.head? ≠ some '/') : ¬ ['/', '/'] <:+: uri.path := by
  obtain ⟨chained, form, chain⟩ := normalPath_chain uri.path
  rw [normal] at form
  intro slashes
  rcases form with whole | whole
  · rw [whole] at slashes
    have apart := chain.infix slashes
    simp [Path.Apart] at apart
  · rw [whole] at start
    exact start rfl

theorem Read.parse_render_colon {name : Text} (read : uri.Read) (none : uri.authority = [])
    (noScheme : uri.scheme = []) (isScheme : IsScheme name) (path : uri.path = name ++ ':' :: rest)
    (single : ¬ ['/', '/'] <+: rest) :
    parse (render uri) = .ok { uri with scheme := name.map Char.toLower, path := rest } := by
  have whole : render uri = name ++ ':' :: (rest ++ uri.marks) := by
    rw [render_of_bare none noScheme, path]
    simp
  have head : ∀ c ∈ (render uri).head?, 0x20 < c.toNat := by
    rw [whole]
    exact fun c first => (of_isSchemeChar (isScheme.head c first)).2.2.2.1
  have scheme : takeScheme (stripped (render uri)) = (name.map Char.toLower, rest ++ uri.marks) := by
    rw [stripped_eq_self read.sound.isKept head, whole, takeScheme_append isScheme]
  refine parse_of_parts scheme ?_ (fun c member => read.sound.path c (by simp [path, member])) read.query
  rw [none]
  exact takeAuthority_of_bare fun slashes =>
    single (row_of_row_append (n := 2) (marks_head_ne_slash uri) slashes)

theorem Read.takeScheme_render_of_slashes (read : uri.Read) (none : uri.authority = [])
    (path : uri.path = '/' :: '/' :: (host ++ rest)) :
    takeScheme (stripped (render uri)) = (uri.scheme, '/' :: '/' :: (host ++ (rest ++ uri.marks))) := by
  have hidden : uri.showsAuthority = false := hides_of_slashes none ⟨_, by rw [path]; rfl⟩
  have body : uri.body = '/' :: '/' :: (host ++ rest) := by rw [body_of_hidden hidden, path]
  rw [read.takeScheme_render fun _ => unmarked_of_slash (by rw [body]; rfl), body]
  simp

/-- An authority that is refused leaves no address at all. -/
theorem Read.checkAuthority_of_isFixed (read : uri.Read) (none : uri.authority = [])
    (path : uri.path = '/' :: '/' :: (host ++ rest)) (plain : '/' ∉ host)
    (ends : ∀ c ∈ rest.head?, c = '/') (fixed : uri.IsFixed) : checkAuthority host = .ok () := by
  have marks : ∀ c ∈ host, c ≠ '?' ∧ c ≠ '#' := fun c member =>
    read.sound.path c (by simp [path, member])
  obtain ⟨other, again, -⟩ := fixed.exists_parse
  obtain ⟨after, tail, first, taken, -⟩ := parse_eq_ok again
  rw [read.takeScheme_render_of_slashes none path] at first
  obtain ⟨-, rfl⟩ := Prod.mk.inj first
  rcases takeAuthority_eq_ok taken with ⟨-, -, bare⟩ | ⟨whole, others, tails, accepted⟩
  · exact absurd ⟨_, rfl⟩ bare
  · have same := (List.cons.inj (List.cons.inj whole).2).2
    rwa [host_unique plain marks (isPlain_head_marks ends uri) others tails same]

section Fixed

variable (read : uri.Read) (normal : uri.normalParts = uri)
include read normal

theorem isFixed_of_authority (given : uri.authority ≠ []) : uri.IsFixed := by
  have shows : uri.showsAuthority = true := by simp [showsAuthority, given]
  have rooted := read.rooted given
  exact isFixed_of_parse normal (read.parse_render_shown shows rooted)

/-- Two slashes in front of a path are read as those of an authority. -/
theorem isFixed_iff_of_checked (none : uri.authority = [])
    (path : uri.path = '/' :: '/' :: (host ++ rest)) (plain : '/' ∉ host)
    (ends : ∀ c ∈ rest.head?, c = '/') (checked : checkAuthority host = .ok ()) :
    uri.IsFixed ↔ if host = [] then isShown uri.scheme = true else Text.lower host = host := by
  have hidden : uri.showsAuthority = false := hides_of_slashes none ⟨_, by rw [path]; rfl⟩
  have body : uri.body = '/' :: '/' :: (host ++ rest) := by rw [body_of_hidden hidden, path]
  have plainHost := isPlain_of_host plain fun c member => read.sound.path c (by simp [path, member])
  obtain ⟨normalRest, bare⟩ : normalPath rest = rest ∧ (host = [] → rest = []) := by
    refine normalPath_behind ?_ plain ends
    rw [← path]
    exact congrArg Uri.path normal
  have again : parse (render uri) = .ok { uri with authority := host, path := rest } :=
    parse_of_parts (read.takeScheme_render_of_slashes none path)
      (takeAuthority_append plainHost (isPlain_head_marks ends uri) checked)
      (fun c member => read.sound.path c (by simp [path, member])) read.query
  have parts : Uri.normalParts { uri with authority := host, path := rest } =
      { uri with authority := Text.lower host, path := rest } := by
    rw [Uri.normalParts, normalRest]
  rw [isFixed_iff again, parts, render_inj_iff (by rfl) (by rfl), body]
  by_cases empty : host = []
  · obtain rfl := bare empty
    subst empty
    rw [if_pos rfl]
    have shows : Uri.showsAuthority { uri with authority := Text.lower [], path := [] } = true ↔
        isShown uri.scheme = true ∧ ¬ ['/', '/'] <+: [] := shows_iff rfl
    constructor
    · intro same
      by_contra other
      rw [body_of_hidden (by rw [← Bool.not_eq_true, shows]; exact fun both => other both.1)] at same
      cases same
    · intro shown
      rw [body_of_shown (shows.2 ⟨shown, by simp⟩) (by simp)]
      rfl
  · have given : Text.lower host ≠ [] := fun none => empty (Text.lower_eq_nil_iff.1 none)
    rw [if_neg empty, body_of_shown (by simp [showsAuthority, given]) ends]
    simp

theorem isFixed_iff_of_slashes (none : uri.authority = [])
    (path : uri.path = '/' :: '/' :: (host ++ rest)) (plain : '/' ∉ host)
    (ends : ∀ c ∈ rest.head?, c = '/') : uri.IsFixed ↔ if host = [] then isShown uri.scheme = true
      else checkAuthority host = .ok () ∧ Text.lower host = host := by
  by_cases checked : checkAuthority host = .ok ()
  · rw [isFixed_iff_of_checked read normal none path plain ends checked]
    simp [checked]
  · have refused : host ≠ [] := by
      rintro rfl
      exact checked rfl
    refine iff_of_false (fun fixed => ?_) (by simp [refused, checked])
    exact checked (read.checkAuthority_of_isFixed none path plain ends fixed)

/-- A path behind an empty authority is read with a slash in front of it. -/
theorem isFixed_iff_of_shown (none : uri.authority = []) (shown : isShown uri.scheme = true)
    (single : ¬ ['/', '/'] <+: uri.path) : uri.IsFixed ↔
      (uri.path ≠ [] → uri.path.head? ≠ some '/' → normalPath ('/' :: uri.path) = '/' :: uri.path) := by
  have shows := (shows_iff none).2 ⟨shown, single⟩
  by_cases relative : uri.path ≠ [] ∧ uri.path.head? ≠ some '/'
  · obtain ⟨tail, whole, head⟩ := exists_normalPath_root relative.2
    rw [isFixed_iff (read.parse_render_relative none shown relative.1 relative.2),
      normalParts_of_normal normal, whole, render_inj_iff (by rfl) (by rfl), body_of_root none shown head,
      body_of_relative none shown relative.1 relative.2]
    simp [relative.1, relative.2]
  · refine iff_of_true ?_ fun given open_ => absurd ⟨given, open_⟩ relative
    have rooted : ∀ c ∈ uri.path.head?, c = '/' := by
      intro c first
      by_contra other
      refine relative ⟨fun empty => by simp [empty] at first, fun slash => other ?_⟩
      rw [Option.mem_def.1 first] at slash
      exact Option.some.inj slash
    exact isFixed_of_parse normal (read.parse_render_shown shows rooted)

theorem isFixed_of_hidden (hidden : uri.showsAuthority = false) (single : ¬ ['/', '/'] <+: uri.path)
    (unmarked : uri.scheme = [] → Unmarked (uri.path ++ uri.marks)) : uri.IsFixed := by
  refine isFixed_of_parse normal (read.parse_render ?_ ?_ fun _ => single)
  · rwa [body_of_hidden hidden]
  · rw [hidden]
    exact fun shown => by cases shown

/-- A path that starts like a scheme is read as one. -/
theorem isFixed_iff_of_colon {name : Text} (none : uri.authority = []) (noScheme : uri.scheme = [])
    (isScheme : IsScheme name) (path : uri.path = name ++ ':' :: rest) : uri.IsFixed ↔
      name.map Char.toLower = name ∧ isShown name = false ∧ normalPath rest = rest := by
  have single : ¬ ['/', '/'] <+: rest := by
    intro slashes
    refine not_slashes_of_normal (congrArg Uri.path normal) ?_ ?_
    · rw [path]
      exact fun slash => absurd (isScheme.head '/' slash) (by decide)
    · rw [path]
      exact slashes.isInfix.trans ⟨name ++ [':'], [], by simp⟩
  have again := read.parse_render_colon none noScheme isScheme path single
  have whole : render uri = name ++ ':' :: (rest ++ uri.marks) := by
    rw [render_of_bare none noScheme, path]
    simp
  rw [isFixed_iff again, normalParts_of_normal normal, whole, render_eq,
    if_pos isScheme.map_toLower.ne_nil, List.append_assoc, List.singleton_append]
  refine (append_colon_inj (List.length_map _)).trans (and_congr_right fun small => ?_)
  rw [small]
  have shows : Uri.showsAuthority { uri with scheme := name, path := normalPath rest } = true ↔
      isShown name = true ∧ ¬ ['/', '/'] <+: normalPath rest := shows_iff none
  cases shown : Uri.showsAuthority { uri with scheme := name, path := normalPath rest } with
  | true =>
      refine iff_of_false (fun same => single ?_) fun both => ?_
      · rw [← same, body, if_pos shown, List.append_assoc]
        exact List.prefix_append _ _
      · rw [(shows.1 shown).1] at both
        cases both.1
  | false =>
      rw [body_of_hidden shown]
      refine ⟨fun same => ⟨?_, same⟩, fun both => both.2⟩
      by_contra other
      have still : ¬ ['/', '/'] <+: normalPath rest := by rwa [show normalPath rest = rest from same]
      rw [shows.2 ⟨by simpa using other, still⟩] at shown
      cases shown

/-- A path that starts with neither slashes nor blanks nor a scheme is read as it is written. -/
theorem isFixed_of_bare (none : uri.authority = []) (noScheme : uri.scheme = [])
    (single : ¬ ['/', '/'] <+: uri.path) (visible : ∀ c ∈ uri.path.head?, 0x20 < c.toNat)
    (bare : ∀ name rest, IsScheme name → uri.path ≠ name ++ ':' :: rest) : uri.IsFixed := by
  refine isFixed_of_hidden read normal (hides_of_bare none noScheme) single fun _ => ⟨?_, fun c first => ?_⟩
  · rcases takeScheme_cases (uri.path ++ uri.marks) with kept | ⟨name, rest, isScheme, whole, -⟩
    · exact kept
    have marks (c : Char) (text : Text) (same : uri.marks = c :: text) : c = '?' ∨ c = '#' :=
      marks_head uri c (by rw [same]; rfl)
    -- the colon stands in front of the marks
    rcases List.append_eq_append_iff.1 whole with ⟨others, inside, behind⟩ | ⟨others, front, behind⟩
    · cases others with
      | nil => rcases marks ':' rest behind with same | same <;> cases same
      | cons c others =>
          have ok := isScheme.chars c (by simp [inside])
          rcases marks c _ behind with rfl | rfl <;> exact absurd ok (by decide)
    · cases others with
      | nil => rcases marks ':' rest behind.symm with same | same <;> cases same
      | cons c others =>
          obtain ⟨rfl, -⟩ := List.cons.inj behind
          exact absurd front (bare name others isScheme)
  · cases path : uri.path with
    | nil =>
        rw [path] at first
        rcases marks_head uri c first with rfl | rfl <;> decide
    | cons d others =>
        rw [path] at first visible
        exact visible c first

theorem IsFixed.steady (fixed : uri.IsFixed) : uri.Steady where
  host none _ _ path plain ends := (isFixed_iff_of_slashes read normal none path plain ends).1 fixed
  rooted none shown given relative :=
    (isFixed_iff_of_shown read normal none shown (not_slashes_of_head relative)).1 fixed given relative
  visible := visible_of_isFixed fixed
  scheme none noScheme _ _ isScheme path :=
    (isFixed_iff_of_colon read normal none noScheme isScheme path).1 fixed

theorem Steady.isFixed (steady : uri.Steady) : uri.IsFixed := by
  by_cases none : uri.authority = []
  swap
  · exact isFixed_of_authority read normal none
  by_cases slashes : ['/', '/'] <+: uri.path
  · obtain ⟨host, rest, path, plain, ends⟩ := exists_host slashes
    exact (isFixed_iff_of_slashes read normal none path plain ends).2
      (steady.host none host rest path plain ends)
  by_cases shown : isShown uri.scheme = true
  · exact (isFixed_iff_of_shown read normal none shown slashes).2 (steady.rooted none shown)
  by_cases noScheme : uri.scheme = []
  swap
  · exact isFixed_of_hidden read normal (hides_of_scheme none shown) slashes fun bare => absurd bare noScheme
  by_cases colon : ∃ name rest, IsScheme name ∧ uri.path = name ++ ':' :: rest
  · obtain ⟨name, rest, isScheme, path⟩ := colon
    exact (isFixed_iff_of_colon read normal none noScheme isScheme path).2
      (steady.scheme none noScheme name rest isScheme path)
  · exact isFixed_of_bare read normal none noScheme slashes (steady.visible none noScheme)
      fun name rest isScheme path => colon ⟨name, rest, isScheme, path⟩

/-- A normal address is its own normal form just where it is steady. -/
theorem isFixed_iff_steady : uri.IsFixed ↔ uri.Steady :=
  ⟨IsFixed.steady read normal, Steady.isFixed read normal⟩

end Fixed

/-- A normal address has a normal form once more, the same, just where its parts are steady. -/
theorem normalize_normal_iff {address normal : String} (read : parse address.toList = .ok uri)
    (passed : normalize address = .ok normal) :
    normalize normal = .ok normal ↔ uri.normalParts.Steady := by
  obtain rfl := Except.ok.inj ((normalize_of_parse read).symm.trans passed)
  exact isFixed_iff_steady (read_of_parse read).normalParts (normalParts_normalParts uri)

theorem steady_of_authority (given : uri.authority ≠ []) : uri.Steady :=
  ⟨fun none => absurd none given, fun none => absurd none given, fun none => absurd none given,
    fun none => absurd none given⟩

/-- A path from the root, with one slash in front of it, is steady. -/
theorem steady_of_root (path : uri.path = '/' :: rest) (head : rest.head? ≠ some '/') : uri.Steady where
  host _ host others whole := by
    rw [path] at whole
    rw [(List.cons.inj whole).2] at head
    exact absurd rfl head
  rooted _ _ _ relative := by
    rw [path] at relative
    exact absurd rfl relative
  visible _ _ c first := by
    rw [path] at first
    obtain rfl := Option.some.inj first
    decide
  scheme _ _ name others isScheme whole := by
    have first : (name ++ ':' :: others).head? = some '/' := by
      rw [← whole, path]
      rfl
    exact absurd (isScheme.head '/' first) (by decide)

end ChoiceScript.Uri
