import ChoiceScript.Uri.Basic
import ChoiceScript.Proofs.Outcome

/-! # The parts of an address

A scheme is read off the start of an address whenever one stands there, and the authority ends at the
first mark. Reading an address fails only where its authority is refused, and no part of an address
holds a tab or a line break.
-/

namespace ChoiceScript.Uri

/-- Is the character none of the marks that end an authority? -/
def isPlain (c : Char) : Bool := !(['/', '?', '#'].contains c)

/-- Is the character none of those that an address is rid of? -/
def isKept (c : Char) : Bool := !(['\t', '\n', '\r'].contains c)

/-- Is the text the name of a scheme? -/
def IsScheme : Text → Prop
  | [] => False
  | c :: rest => c.isAlpha = true ∧ ∀ d ∈ c :: rest, isSchemeChar d = true

theorem eq_mark_of_not_isPlain {c : Char} (mark : ¬ isPlain c = true) :
    c = '/' ∨ c = '?' ∨ c = '#' :=
  Decidable.byContradiction fun other => mark (by simpa [isPlain, not_or] using other)

theorem eq_break_of_not_isKept {c : Char} (lost : ¬ isKept c = true) :
    c = '\t' ∨ c = '\n' ∨ c = '\r' :=
  Decidable.byContradiction fun other => lost (by simpa [isKept, not_or] using other)

theorem toNat_lt_of_isAlphanum {c : Char} (ok : c.isAlphanum = true) : c.toNat < 128 := by
  cases Bool.or_eq_true_iff.1 ok with
  | inl letter =>
      cases Bool.or_eq_true_iff.1 letter with
      | inl upper => exact Nat.lt_of_le_of_lt (of_decide_eq_true upper).2 (by decide)
      | inr lower =>
          have high := of_decide_eq_true (Bool.and_eq_true_iff.1 lower).2
          exact Nat.lt_of_le_of_lt high (by decide)
  | inr digit =>
      have high := of_decide_eq_true (Bool.and_eq_true_iff.1 digit).2
      exact Nat.lt_of_le_of_lt high (by decide)

theorem toNat_lt_of_isSchemeChar {c : Char} (ok : isSchemeChar c = true) : c.toNat < 128 := by
  simp only [isSchemeChar, Bool.or_eq_true, List.contains_iff_mem, List.mem_cons, List.not_mem_nil,
    or_false] at ok
  rcases ok with letter | rfl | rfl | rfl
  · exact toNat_lt_of_isAlphanum letter
  all_goals decide

/-- The characters of schemes are neither marks nor colons, nor what an address is rid of. -/
theorem of_isSchemeChar {c : Char} (ok : isSchemeChar c = true) :
    isPlain c = true ∧ c ≠ ':' ∧ isKept c = true ∧ 0x20 < c.toNat ∧ isSchemeChar c.toLower = true := by
  refine Text.of_code (fun d => isSchemeChar d = true → isPlain d = true ∧ d ≠ ':' ∧
    isKept d = true ∧ 0x20 < d.toNat ∧ isSchemeChar d.toLower = true) ?_
    (toNat_lt_of_isSchemeChar ok) ok
  decide +kernel

theorem isAlpha_toLower {c : Char} (alpha : c.isAlpha = true) : c.toLower.isAlpha = true := by
  have ok : isSchemeChar c = true := by simp [isSchemeChar, Char.isAlphanum, alpha]
  refine Text.of_code (fun d => d.isAlpha = true → d.toLower.isAlpha = true) ?_
    (toNat_lt_of_isSchemeChar ok) alpha
  decide +kernel

namespace IsScheme

variable {name : Text}

theorem ne_nil (isScheme : IsScheme name) : name ≠ [] := by
  rintro rfl
  exact isScheme

theorem chars (isScheme : IsScheme name) : ∀ c ∈ name, isSchemeChar c = true := by
  cases name with
  | nil => exact isScheme.elim
  | cons c rest => exact isScheme.2

theorem map_toLower (isScheme : IsScheme name) : IsScheme (name.map Char.toLower) := by
  cases name with
  | nil => exact isScheme.elim
  | cons c rest =>
      refine ⟨isAlpha_toLower isScheme.1, fun d member => ?_⟩
      rw [← List.map_cons] at member
      obtain ⟨original, present, rfl⟩ := List.mem_map.1 member
      exact (of_isSchemeChar (isScheme.2 original present)).2.2.2.2

end IsScheme

theorem takeScheme_append {name : Text} (isScheme : IsScheme name) (rest : Text) :
    takeScheme (name ++ ':' :: rest) = (name.map Char.toLower, rest) := by
  have whole : (name ++ ':' :: rest).takeWhile (· ≠ ':') = name :=
    Text.takeWhile_exact (fun c member => by
      simpa using (of_isSchemeChar (isScheme.chars c member)).2.1) (by simp)
  unfold takeScheme
  simp only [whole, List.drop_left]
  cases name with
  | nil => exact isScheme.elim
  | cons c others =>
      have all : (c :: others).all isSchemeChar = true := List.all_eq_true.2 isScheme.2
      simp only [isScheme.1, all, Bool.and_self, if_true]

/-- Either no scheme is taken off an address or one with its colon. -/
theorem takeScheme_cases (address : Text) :
    takeScheme address = ([], address) ∨
      ∃ name rest, IsScheme name ∧ address = name ++ ':' :: rest ∧
        takeScheme address = (name.map Char.toLower, rest) := by
  unfold takeScheme
  dsimp only
  split
  · rename_i c others mark rest name after
    split
    · rename_i ok
      simp only [Bool.and_eq_true] at ok
      have isScheme : IsScheme (c :: others) := by
        refine ⟨ok.1, List.all_eq_true.1 ?_⟩
        rw [← name]
        exact ok.2
      have whole : address = address.takeWhile (· ≠ ':') ++ mark :: rest := by
        conv => lhs; rw [← List.take_append_drop (address.takeWhile (· ≠ ':')).length address]
        rw [after, ← List.prefix_iff_eq_take.1 (List.takeWhile_prefix _)]
      have colon : mark = ':' := by
        have stops : address[(address.takeWhile (· ≠ ':')).length]? = some mark := by
          rw [← Nat.add_zero (List.length _), ← List.getElem?_drop, after]
          rfl
        have failed := Text.not_of_getElem?_takeWhile stops
        simpa using failed
      subst colon
      refine .inr ⟨c :: others, rest, isScheme, ?_, by rw [name]⟩
      rw [← name]
      exact whole
    · exact .inl rfl
  · exact .inl rfl

theorem takeAuthority_append {authority rest : Text} (plain : ∀ c ∈ authority, isPlain c = true)
    (ends : ∀ c ∈ rest.head?, isPlain c = false) (checked : checkAuthority authority = .ok ()) :
    takeAuthority ('/' :: '/' :: (authority ++ rest)) = .ok (authority, rest) := by
  have whole : (authority ++ rest).takeWhile isPlain = authority := Text.takeWhile_exact plain ends
  have taken : takeAuthority ('/' :: '/' :: (authority ++ rest)) = (do
      checkAuthority ((authority ++ rest).takeWhile isPlain)
      return ((authority ++ rest).takeWhile isPlain,
        (authority ++ rest).drop ((authority ++ rest).takeWhile isPlain).length)) := rfl
  rw [taken, whole, checked, List.drop_left]
  rfl

/-- Only what starts with two slashes can be refused. -/
theorem takeAuthority_of_bare {text : Text} (bare : ¬ ['/', '/'] <+: text) :
    takeAuthority text = .ok ([], text) := by
  unfold takeAuthority
  split
  · exact absurd (by simp) bare
  · rfl

theorem takeAuthority_eq_ok {text authority rest : Text}
    (taken : takeAuthority text = .ok (authority, rest)) :
    (authority = [] ∧ rest = text ∧ ¬ ['/', '/'] <+: text) ∨
      text = '/' :: '/' :: (authority ++ rest) ∧ (∀ c ∈ authority, isPlain c = true) ∧
        (∀ c ∈ rest.head?, isPlain c = false) ∧ checkAuthority authority = .ok () := by
  by_cases slashes : ['/', '/'] <+: text
  · obtain ⟨after, rfl⟩ := slashes
    have spelled : takeAuthority (['/', '/'] ++ after) = (do
        checkAuthority (after.takeWhile isPlain)
        return (after.takeWhile isPlain, after.drop (after.takeWhile isPlain).length)) := rfl
    rw [spelled] at taken
    obtain ⟨_, checked, same⟩ := Outcome.bind_eq_ok taken
    obtain ⟨rfl, rfl⟩ := Prod.mk.inj (Except.ok.inj same)
    refine .inr ⟨?_, List.all_eq_true.1 List.all_takeWhile, fun c first => ?_, checked⟩
    · have parts := List.take_append_drop (after.takeWhile isPlain).length after
      rw [← List.prefix_iff_eq_take.1 (List.takeWhile_prefix isPlain)] at parts
      rw [parts]
      rfl
    · rw [Option.mem_def, List.head?_drop] at first
      exact Text.not_of_getElem?_takeWhile first
  · rw [takeAuthority_of_bare slashes] at taken
    obtain ⟨rfl, rfl⟩ := Prod.mk.inj (Except.ok.inj taken)
    exact .inl ⟨rfl, rfl, slashes⟩

theorem takeAfter_part (mark : Char) (text : Text) : (takeAfter mark text).1 <+: text :=
  List.takeWhile_prefix _

theorem not_mem_takeAfter (mark : Char) (text : Text) : mark ∉ (takeAfter mark text).1 := by
  intro member
  have := List.all_eq_true.1 List.all_takeWhile mark member
  simp at this

theorem mem_of_mem_takeAfter {mark c : Char} {text : Text} (member : c ∈ (takeAfter mark text).2) :
    c ∈ text :=
  (List.dropWhile_suffix _).subset (List.mem_of_mem_drop member)

/-- The steps of reading an address that can be read. -/
theorem parse_eq_ok {address : Text} {uri : Uri} (read : parse address = .ok uri) :
    ∃ after rest, takeScheme (stripped address) = (uri.scheme, after) ∧
      takeAuthority after = .ok (uri.authority, rest) ∧
      uri.path = (takeAfter '?' (takeAfter '#' rest).1).1 ∧
      uri.query = (takeAfter '?' (takeAfter '#' rest).1).2 ∧
      uri.fragment = (takeAfter '#' rest).2 := by
  obtain ⟨⟨authority, rest⟩, taken, same⟩ := Outcome.bind_eq_ok read
  obtain rfl := Except.ok.inj same
  exact ⟨_, rest, rfl, taken, rfl, rfl, rfl⟩

/-- Reading an address fails only where its authority is refused. -/
theorem exists_parse {address : Text} {taken : Text × Text}
    (passed : takeAuthority (takeScheme (stripped address)).2 = .ok taken) :
    ∃ uri, parse address = .ok uri := by
  unfold parse
  simp only [passed, Outcome.bind_ok]
  exact ⟨_, rfl⟩

/-- What reading an address says of its parts. -/
structure Sound (uri : Uri) : Prop where
  scheme : uri.scheme = [] ∨ IsScheme uri.scheme
  authority : ∀ c ∈ uri.authority, isPlain c = true
  checked : checkAuthority uri.authority = .ok ()
  path : ∀ c ∈ uri.path, c ≠ '?' ∧ c ≠ '#'
  kept : ∀ c ∈ uri.authority ++ uri.path ++ uri.query ++ uri.fragment, isKept c = true

theorem isKept_of_mem_stripped {address : Text} {c : Char} (member : c ∈ stripped address) :
    isKept c = true :=
  (List.mem_filter.1 member).2

theorem mem_of_mem_takeScheme {address : Text} {c : Char} (member : c ∈ (takeScheme address).2) :
    c ∈ address := by
  rcases takeScheme_cases address with none | ⟨name, rest, -, rfl, taken⟩
  · rwa [none] at member
  · rw [taken] at member
    simp [member]

theorem scheme_of_takeScheme (text : Text) :
    (takeScheme text).1 = [] ∨ IsScheme (takeScheme text).1 := by
  rcases takeScheme_cases text with none | ⟨name, _, isScheme, -, taken⟩
  · exact .inl (by rw [none])
  · rw [taken]
    exact .inr isScheme.map_toLower

theorem mem_of_takeAuthority {text authority rest : Text}
    (taken : takeAuthority text = .ok (authority, rest)) {c : Char} (member : c ∈ authority ++ rest) :
    c ∈ text := by
  rcases takeAuthority_eq_ok taken with ⟨rfl, rfl, -⟩ | ⟨rfl, -⟩
  · simpa using member
  · exact List.mem_cons_of_mem _ (List.mem_cons_of_mem _ member)

theorem sound_of_parse {address : Text} {uri : Uri} (read : parse address = .ok uri) : uri.Sound := by
  obtain ⟨after, rest, scheme, authority, path, query, fragment⟩ := parse_eq_ok read
  have inPath : ∀ c ∈ uri.path, c ∈ (takeAfter '#' rest).1 := by
    intro c member
    rw [path] at member
    exact (takeAfter_part _ _).subset member
  refine ⟨?_, ?_, ?_, ?_, ?_⟩
  · have held := scheme_of_takeScheme (stripped address)
    rwa [scheme] at held
  · rcases takeAuthority_eq_ok authority with ⟨none, -, -⟩ | ⟨-, plain, -, -⟩
    · simp [none]
    · exact plain
  · rcases takeAuthority_eq_ok authority with ⟨none, -, -⟩ | ⟨-, -, -, checked⟩
    · rw [none]
      rfl
    · exact checked
  · intro c member
    refine ⟨fun same => ?_, fun same => ?_⟩
    · subst same
      rw [path] at member
      exact not_mem_takeAfter _ _ member
    · subst same
      exact not_mem_takeAfter _ _ (inPath _ member)
  · intro c member
    have inAfter : ∀ d ∈ uri.authority ++ rest, isKept d = true := by
      intro d inside
      have present := mem_of_takeAuthority authority inside
      have whole : after = (takeScheme (stripped address)).2 := by rw [scheme]
      rw [whole] at present
      exact isKept_of_mem_stripped (mem_of_mem_takeScheme present)
    simp only [List.mem_append] at member
    refine inAfter c (List.mem_append.2 ?_)
    rcases member with ((there | there) | there) | there
    · exact .inl there
    · exact .inr ((takeAfter_part _ _).subset (inPath c there))
    · rw [query] at there
      exact .inr ((takeAfter_part _ _).subset (mem_of_mem_takeAfter there))
    · rw [fragment] at there
      exact .inr (mem_of_mem_takeAfter there)

end ChoiceScript.Uri
