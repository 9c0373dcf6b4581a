import ChoiceScript.Proofs.Uri.Normal
import Mathlib.Data.List.Flatten

/-! # Paths that are normal already

A normal path is a root, names that each stay when they are taken in behind those before them, and a
slash at the end or none. A path that is laid out so is its own normal form, and the normal form of
every path is laid out so.
-/

namespace ChoiceScript

namespace Text

variable {separator : Char} {before after : Text} {pieces : List Text}

theorem splitOn_append (separator : Char) (before after : Text) :
    splitOn separator (before ++ separator :: after) =
      splitOn separator before ++ splitOn separator after := by
  induction before with
  | nil => simp [splitOn]
  | cons c rest ih =>
      rw [List.cons_append, splitOn, splitOn, ih]
      split
      · rfl
      · cases pieces : splitOn separator rest with
        | nil => exact absurd pieces (splitOn_ne_nil separator rest)
        | cons piece others => rfl

theorem splitOn_of_not_mem {text : Text} (absent : separator ∉ text) :
    splitOn separator text = [text] := by
  induction text with
  | nil => rfl
  | cons c rest ih =>
      have apart : c ≠ separator := by
        rintro rfl
        exact absent List.mem_cons_self
      rw [splitOn, if_neg apart, ih fun member => absent (List.mem_cons_of_mem _ member)]

/-- Text that is not the separator is in the pieces as often as in the text. -/
theorem count_flatten_splitOn {c : Char} (other : c ≠ separator) (text : Text) :
    (splitOn separator text).flatten.count c = text.count c := by
  induction text with
  | nil => rfl
  | cons d rest ih =>
      rw [splitOn]
      split
      · rename_i same
        rw [List.flatten_cons, List.nil_append, ih, List.count_cons_of_ne]
        exact fun same' => other (same'.symm.trans same)
      · cases pieces : splitOn separator rest with
        | nil => exact absurd pieces (splitOn_ne_nil separator rest)
        | cons piece others =>
            rw [pieces, List.flatten_cons] at ih
            simp [List.count_cons, ← ih]

theorem count_joinWith {c : Char} (other : c ≠ separator) (pieces : List Text) :
    (joinWith separator pieces).count c = pieces.flatten.count c := by
  fun_induction joinWith separator pieces with
  | case1 => rfl
  | case2 piece => simp
  | case3 piece pieces _ ih =>
      rw [List.count_append, List.count_cons_of_ne other.symm, ih, List.flatten_cons, List.count_append]

end Text

namespace Path

variable {rooted : Bool} {path name root : Text} {kept parts : List Text}

/-- The names in reverse, each of which stays when it is taken in behind those before it. -/
inductive Settled (rooted : Bool) : List Text → Prop
  | nil : Settled rooted []
  | cons {name : Text} {kept : List Text} (stays : step rooted kept name = name :: kept)
      (before : Settled rooted kept) : Settled rooted (name :: kept)

/-- A name is passed over, stays, or takes back the one before it. -/
theorem step_cases (rooted : Bool) (kept : List Text) (name : Text) :
    step rooted kept name = kept ∨ step rooted kept name = name :: kept ∨
      ∃ last, kept = last :: step rooted kept name := by
  unfold step
  repeat' split
  all_goals simp_all

theorem Settled.step (settled : Settled rooted kept) (name : Text) :
    Settled rooted (step rooted kept name) := by
  rcases step_cases rooted kept name with same | stays | ⟨last, taken⟩
  · rwa [same]
  · rw [stays]
    exact .cons stays settled
  · generalize Path.step rooted kept name = before at taken
    subst taken
    cases settled with
    | cons _ before => exact before

theorem Settled.foldl (settled : Settled rooted kept) (parts : List Text) :
    Settled rooted (parts.foldl (Path.step rooted) kept) := by
  induction parts generalizing kept with
  | nil => exact settled
  | cons name parts ih => exact ih (settled.step name)

theorem Settled.foldl_eq (settled : Settled rooted kept) :
    kept.reverse.foldl (Path.step rooted) [] = kept := by
  induction settled with
  | nil => rfl
  | cons stays before ih => rw [List.reverse_cons, List.foldl_append, ih, List.foldl_cons, stays]; rfl

/-- A name that leads neither nowhere nor up. -/
structure IsProper (name : Text) : Prop where
  nonempty : name ≠ []
  here : name ≠ ['.']
  up : name ≠ ['.', '.']

theorem step_of_isProper (proper : IsProper name) : step rooted kept name = name :: kept := by
  simp [step, proper.nonempty, proper.here, proper.up]

theorem settled_of_isProper (proper : ∀ name ∈ kept, IsProper name) : Settled rooted kept := by
  induction kept with
  | nil => exact .nil
  | cons name kept ih =>
      exact .cons (step_of_isProper (proper name List.mem_cons_self))
        (ih fun other member => proper other (List.mem_cons_of_mem _ member))

/-- Behind a root no name leads up. -/
theorem Settled.isProper (settled : Settled true kept) : ∀ name ∈ kept, IsProper name := by
  induction settled with
  | nil => simp
  | @cons name kept stays before ih =>
      intro other member
      rcases List.mem_cons.1 member with rfl | earlier
      · have length : (Path.step true kept other).length = kept.length + 1 := by
          rw [stays, List.length_cons]
        refine ⟨?_, ?_, ?_⟩
        · rintro rfl
          simp [Path.step] at length
        · rintro rfl
          simp [Path.step] at length
        · rintro rfl
          cases kept with
          | nil => simp [Path.step] at length
          | cons last kept =>
              have up := (ih last List.mem_cons_self).up
              simp [Path.step, up] at length
              omega
      · exact ih other earlier

/-- The pieces between the slashes of a path that hold something. -/
def pieces (path : Text) : List Text := (Text.splitOn '/' path).filter (· ≠ [])

theorem foldl_step_filter (rooted : Bool) (kept parts : List Text) :
    (parts.filter (· ≠ [])).foldl (step rooted) kept = parts.foldl (step rooted) kept := by
  induction parts generalizing kept with
  | nil => rfl
  | cons name parts ih =>
      by_cases none : name = []
      · rw [List.filter_cons_of_neg (by simp [none]), ih, List.foldl_cons]
        simp [none, step]
      · rw [List.filter_cons_of_pos (by simp [none]), List.foldl_cons, List.foldl_cons, ih]

theorem names_eq (path : Text) :
    names path = ((pieces path).foldl (step (path.head? = some '/')) []).reverse := by
  rw [names, pieces, foldl_step_filter]

theorem pieces_append (before after : Text) :
    pieces (before ++ '/' :: after) = pieces before ++ pieces after := by
  rw [pieces, Text.splitOn_append, List.filter_append]
  rfl

theorem pieces_nil : pieces [] = [] := rfl

theorem pieces_slash (path : Text) : pieces ('/' :: path) = pieces path := pieces_append [] path

theorem pieces_joinWith (all : ∀ part ∈ parts, IsName part) :
    pieces (Text.joinWith '/' parts) = parts := by
  have alone (part : Text) (member : part ∈ parts) : pieces part = [part] := by
    obtain ⟨nonempty, absent⟩ := all part member
    rw [pieces, Text.splitOn_of_not_mem absent]
    simp [nonempty]
  fun_induction Text.joinWith '/' parts with
  | case1 => rfl
  | case2 part => exact alone part List.mem_cons_self
  | case3 part parts _ ih =>
      rw [pieces_append, alone part List.mem_cons_self,
        ih (fun other later => all other (List.mem_cons_of_mem _ later))
          fun other later => alone other (List.mem_cons_of_mem _ later)]
      rfl

def roots : List Text := [[], ['/'], ['/', '/']]

theorem rootOf_mem_roots (path : Text) : rootOf path ∈ roots := by
  unfold rootOf
  split <;> simp [roots]

theorem rootOf_append (isRoot : root ∈ roots) (head : path.head? ≠ some '/') :
    rootOf (root ++ path) = root := by
  simp only [roots, List.mem_cons, List.not_mem_nil, or_false] at isRoot
  rcases isRoot with rfl | rfl | rfl <;> cases path <;> simp_all [rootOf]

theorem pieces_root (isRoot : root ∈ roots) (path : Text) : pieces (root ++ path) = pieces path := by
  simp only [roots, List.mem_cons, List.not_mem_nil, or_false] at isRoot
  rcases isRoot with rfl | rfl | rfl
  · rfl
  · exact pieces_slash path
  · exact (pieces_slash _).trans (pieces_slash path)

theorem head?_root (isRoot : root ∈ roots) (head : path.head? ≠ some '/') :
    (root ++ path).head? = some '/' ↔ root ≠ [] := by
  simp only [roots, List.mem_cons, List.not_mem_nil, or_false] at isRoot
  rcases isRoot with rfl | rfl | rfl <;> simp_all

/-- A root and names behind it that all stay. -/
structure Layout (root : Text) (names : List Text) : Prop where
  isRoot : root ∈ roots
  isName : ∀ name ∈ names, IsName name
  settled : Settled (root ≠ []) names.reverse

/-- The names behind a root and a slash behind them. -/
theorem Layout.head (layout : Layout root parts) {trail : Text} (trails : trail = [] ∨ parts ≠ []) :
    (Text.joinWith '/' parts ++ trail).head? ≠ some '/' := by
  obtain ⟨-, head, -, whole⟩ := joinWith_chain layout.isName
  by_cases none : Text.joinWith '/' parts = []
  · have bare : trail = [] := trails.resolve_right fun some => some (whole none)
    simp [none, bare]
  · rwa [List.head?_append_of_ne_nil _ none]

/-- What is laid out is normal, with a slash behind it or none. -/
theorem Layout.normalize (layout : Layout root parts) (given : root ++ Text.joinWith '/' parts ≠ [])
    {trail : Text} (trails : trail = [] ∨ trail = ['/'] ∧ parts ≠ []) :
    Path.normalize (root ++ (Text.joinWith '/' parts ++ trail)) = root ++ Text.joinWith '/' parts := by
  have head := layout.head (trails.imp_right And.right)
  have inside : pieces (Text.joinWith '/' parts ++ trail) = parts := by
    rcases trails with rfl | ⟨rfl, -⟩
    · rw [List.append_nil, pieces_joinWith layout.isName]
    · rw [pieces_append, pieces_joinWith layout.isName, pieces_nil, List.append_nil]
  have same : names (root ++ (Text.joinWith '/' parts ++ trail)) = parts := by
    have rooted : decide ((root ++ (Text.joinWith '/' parts ++ trail)).head? = some '/') =
        decide (root ≠ []) := decide_eq_decide.2 (head?_root layout.isRoot head)
    have folded := layout.settled.foldl_eq
    rw [List.reverse_reverse] at folded
    rw [names_eq, pieces_root layout.isRoot, inside, rooted, folded, List.reverse_reverse]
  rw [Path.normalize, rootOf_append layout.isRoot head, same]
  split
  · rename_i none
    exact absurd none given
  · rfl

theorem rootOf_ne_nil_iff (path : Text) : path.head? = some '/' ↔ rootOf path ≠ [] := by
  cases path with
  | nil => simp [rootOf]
  | cons c rest =>
      unfold rootOf
      split <;> simp_all

theorem Layout.isProper (layout : Layout root parts) (rooted : root ≠ []) :
    ∀ name ∈ parts, IsProper name := fun name member =>
  Settled.isProper (by simpa [rooted] using layout.settled) name (List.mem_reverse.2 member)

/-- Names that lead neither nowhere nor up stay behind every root. -/
theorem layout_of_isProper (isRoot : root ∈ roots) (isName : ∀ name ∈ parts, IsName name)
    (proper : ∀ name ∈ parts, IsProper name) : Layout root parts :=
  ⟨isRoot, isName, settled_of_isProper fun name member => proper name (List.mem_reverse.1 member)⟩

theorem layout_names (path : Text) : Layout (rootOf path) (names path) where
  isRoot := rootOf_mem_roots path
  isName _ := isName_of_mem_names
  settled := by
    have rooted : decide (rootOf path ≠ []) = decide (path.head? = some '/') :=
      decide_eq_decide.2 (rootOf_ne_nil_iff path).symm
    rw [names, List.reverse_reverse, rooted]
    exact Settled.nil.foldl _

end Path

namespace Uri

open ChoiceScript.Path

variable {path root host rest : Text} {parts : List Text}

/-- The form of a normal path. -/
inductive IsNormalPath : Text → Prop
  | empty : IsNormalPath []
  | here : IsNormalPath ['.']
  | hereFolder : IsNormalPath ['.', '/']
  | laidOut {root trail : Text} {names : List Text} (layout : Layout root names)
      (given : root ++ Text.joinWith '/' names ≠ []) (trails : trail = [] ∨ trail = ['/'] ∧ names ≠ []) :
      IsNormalPath (root ++ (Text.joinWith '/' names ++ trail))

theorem IsNormalPath.normalPath_eq (normal : IsNormalPath path) : normalPath path = path := by
  cases normal with
  | empty => rfl
  | here => decide
  | hereFolder => decide
  | @laidOut root trail names layout given trails =>
      have nonempty : root ++ (Text.joinWith '/' names ++ trail) ≠ [] := by
        rw [← List.append_assoc]
        exact fun none => given (List.append_eq_nil_iff.1 none).1
      rw [normalPath, if_neg nonempty, layout.normalize given trails]
      rcases trails with rfl | ⟨rfl, some⟩
      · simp only [List.append_nil]
        rw [if_neg]
        rw [Bool.and_eq_true, decide_eq_true_eq, decide_eq_true_eq]
        exact fun both => both.2 both.1
      · obtain ⟨-, -, last, whole⟩ := joinWith_chain layout.isName
        have filled : Text.joinWith '/' names ≠ [] := fun none => some (whole none)
        simp [List.getLast?_append_of_ne_nil _ filled, last]

/-- The normal form of a path: nothing, the folder itself, or what is laid out with the root of the
path. -/
theorem normalPath_cases (path : Text) : path = [] ∧ normalPath path = [] ∨
    rootOf path = [] ∧ (normalPath path = ['.'] ∨ normalPath path = ['.', '/']) ∨
    ∃ trail, rootOf path ++ Text.joinWith '/' (Path.names path) ≠ [] ∧
      (trail = [] ∨ trail = ['/'] ∧ Path.names path ≠ []) ∧
      normalPath path = rootOf path ++ (Text.joinWith '/' (Path.names path) ++ trail) := by
  by_cases empty : path = []
  · subst empty
    exact .inl ⟨rfl, rfl⟩
  rw [normalPath, if_neg empty]
  by_cases bare : rootOf path ++ Text.joinWith '/' (Path.names path) = []
  · have here : Path.normalize path = ['.'] := by rw [Path.normalize, bare]
    refine .inr (.inl ⟨(List.append_eq_nil_iff.1 bare).1, ?_⟩)
    rw [here]
    split
    · exact .inr rfl
    · exact .inl rfl
  · have filled : Path.normalize path = rootOf path ++ Text.joinWith '/' (Path.names path) := by
      rw [Path.normalize]
      split
      · rename_i none
        exact absurd none bare
      · rfl
    rw [filled]
    split
    · rename_i open_
      rw [Bool.and_eq_true, decide_eq_true_eq, decide_eq_true_eq] at open_
      refine .inr (.inr ⟨['/'], bare, .inr ⟨rfl, fun none => ?_⟩, List.append_assoc _ _ _⟩)
      -- a root alone ends in its slash
      rw [none] at bare open_
      have isRoot := rootOf_mem_roots path
      simp only [roots, List.mem_cons, List.not_mem_nil, or_false] at isRoot
      rcases isRoot with root | root | root <;> simp [root, Text.joinWith] at bare open_
    · exact .inr (.inr ⟨[], bare, .inl rfl, by rw [List.append_nil]⟩)

theorem isNormalPath_normalPath (path : Text) : IsNormalPath (normalPath path) := by
  rcases normalPath_cases path with ⟨-, empty⟩ | ⟨-, here | here⟩ | ⟨trail, given, trails, whole⟩
  · rw [empty]
    exact .empty
  · rw [here]
    exact .here
  · rw [here]
    exact .hereFolder
  · rw [whole]
    exact .laidOut (layout_names path) given trails

/-- The normal form of a path is its own normal form. -/
theorem normalPath_normalPath (path : Text) : normalPath (normalPath path) = normalPath path :=
  (isNormalPath_normalPath path).normalPath_eq

/-- A normal path starts with the root of the path and goes on with no slash. -/
theorem exists_normalPath_eq (path : Text) :
    ∃ rest, normalPath path = rootOf path ++ rest ∧ rest.head? ≠ some '/' := by
  rcases normalPath_cases path with ⟨rfl, empty⟩ | ⟨root, here | here⟩ | ⟨trail, given, trails, whole⟩
  · exact ⟨[], empty, by simp⟩
  · exact ⟨['.'], by rw [root, here]; rfl, by simp⟩
  · exact ⟨['.', '/'], by rw [root, here]; rfl, by simp⟩
  · exact ⟨_, whole, (layout_names path).head (trails.imp_right And.right)⟩

/-- What stands behind the root of a normal path is laid out there. -/
theorem exists_layout (isRoot : root ∈ roots) (rooted : root ≠ [])
    (normal : normalPath (root ++ rest) = root ++ rest) (head : rest.head? ≠ some '/') :
    ∃ names trail, Layout root names ∧ (trail = [] ∨ trail = ['/'] ∧ names ≠ []) ∧
      rest = Text.joinWith '/' names ++ trail := by
  have own : rootOf (root ++ rest) = root := rootOf_append isRoot head
  have layout := layout_names (root ++ rest)
  rw [own] at layout
  rcases normalPath_cases (root ++ rest) with ⟨empty, -⟩ | ⟨bare, -⟩ | ⟨trail, -, trails, whole⟩
  · exact absurd (List.append_eq_nil_iff.1 empty).1 rooted
  · exact absurd (own.symm.trans bare) rooted
  · rw [normal, own] at whole
    exact ⟨_, trail, layout, trails, List.append_cancel_left whole⟩

theorem exists_joinWith_cons (name : Text) (names : List Text) :
    ∃ tail, Text.joinWith '/' (name :: names) = name ++ tail ∧
      (tail = [] ∧ names = [] ∨ tail = '/' :: Text.joinWith '/' names ∧ names ≠ []) := by
  cases names with
  | nil => exact ⟨[], (List.append_nil _).symm, .inl ⟨rfl, rfl⟩⟩
  | cons next names => exact ⟨_, rfl, .inr ⟨rfl, by simp⟩⟩

/-- A text is cut in one way where its first slash stands. -/
theorem append_inj_of_slash {name other rest : Text} (plain : '/' ∉ host) (absent : '/' ∉ name)
    (ends : ∀ c ∈ rest.head?, c = '/') (others : ∀ c ∈ other.head?, c = '/')
    (same : host ++ rest = name ++ other) : host = name ∧ rest = other := by
  have whole {before after : Text} (bare : '/' ∉ before) (slash : ∀ c ∈ after.head?, c = '/') :
      (before ++ after).takeWhile (· ≠ '/') = before := by
    refine Text.takeWhile_exact (fun c member => ?_) fun c first => by simp [slash c first]
    simp only [decide_eq_true_eq]
    rintro rfl
    exact bare member
  have first := congrArg (List.takeWhile (· ≠ '/')) same
  rw [whole plain ends, whole absent others] at first
  subst first
  exact ⟨rfl, List.append_cancel_left same⟩

/-- Behind two slashes and a name, a normal path is normal itself. -/
theorem normalPath_behind
    (normal : normalPath ('/' :: '/' :: (host ++ rest)) = '/' :: '/' :: (host ++ rest))
    (plain : '/' ∉ host) (ends : ∀ c ∈ rest.head?, c = '/') :
    normalPath rest = rest ∧ (host = [] → rest = []) := by
  -- three slashes would have become one
  have two : (host ++ rest).head? ≠ some '/' := by
    intro three
    obtain ⟨tail, whole⟩ := List.head?_eq_some_iff.1 three
    obtain ⟨behind, form, single⟩ := exists_normalPath_eq ('/' :: '/' :: (host ++ rest))
    rw [normal, whole] at form
    have one : rootOf ('/' :: '/' :: '/' :: tail) = ['/'] := rfl
    rw [one, List.singleton_append, List.cons.injEq] at form
    exact single (form.2 ▸ rfl)
  obtain ⟨names, trail, layout, trails, split⟩ :=
    exists_layout (show ['/', '/'] ∈ roots by simp [roots]) (by simp) normal two
  have proper := layout.isProper (by simp)
  cases names with
  | nil =>
      obtain rfl : trail = [] := trails.resolve_right fun both => both.2 rfl
      obtain ⟨rfl, rfl⟩ := List.append_eq_nil_iff.1 split
      exact ⟨rfl, fun _ => rfl⟩
  | cons first names =>
      obtain ⟨nonempty, absent⟩ := layout.isName first List.mem_cons_self
      obtain ⟨tail, joined, tails⟩ := exists_joinWith_cons first names
      rw [joined, List.append_assoc] at split
      have slashes : ∀ c ∈ (tail ++ trail).head?, c = '/' := by
        rcases tails with ⟨rfl, -⟩ | ⟨rfl, -⟩
        · rcases trails with rfl | ⟨rfl, -⟩ <;> simp
        · simp
      obtain ⟨rfl, rfl⟩ := append_inj_of_slash plain absent ends slashes split
      refine ⟨?_, fun none => absurd none nonempty⟩
      rcases tails with ⟨rfl, rfl⟩ | ⟨rfl, some⟩
      · rcases trails with rfl | ⟨rfl, -⟩ <;> decide
      · have below : Layout ['/'] names := layout_of_isProper (by simp [roots])
          (fun other member => layout.isName other (List.mem_cons_of_mem _ member))
          fun other member => proper other (List.mem_cons_of_mem _ member)
        exact IsNormalPath.normalPath_eq
          (.laidOut below (by simp) (trails.imp_right fun both => ⟨both.1, some⟩))

theorem names_sublist (path : Text) : (Path.names path).Sublist (Text.splitOn '/' path) := by
  suffices ∀ (rooted : Bool) (parts kept : List Text),
      (parts.foldl (step rooted) kept).reverse.Sublist (kept.reverse ++ parts) from this _ _ []
  intro rooted parts
  induction parts with
  | nil => simp
  | cons name parts ih =>
      intro kept
      have one : (step rooted kept name).reverse.Sublist (kept.reverse ++ [name]) := by
        rcases step_cases rooted kept name with same | stays | ⟨last, taken⟩
        · rw [same]
          exact List.sublist_append_left _ _
        · rw [stays, List.reverse_cons]
        · generalize step rooted kept name = before at taken
          rw [taken, List.reverse_cons, List.append_assoc]
          exact List.sublist_append_left _ _
      have both := (ih (step rooted kept name)).trans (one.append_right parts)
      rwa [List.append_assoc] at both

/-- Nothing but slashes and dots comes in with a normal path. -/
theorem count_normalPath_le {c : Char} (noSlash : c ≠ '/') (noDot : c ≠ '.') (path : Text) :
    (normalPath path).count c ≤ path.count c := by
  rcases normalPath_cases path with ⟨rfl, empty⟩ | ⟨-, here | here⟩ | ⟨trail, -, trails, whole⟩
  · rw [empty]
  · simp [here, noDot.symm]
  · simp [here, noDot.symm, noSlash.symm]
  · have root : (rootOf path).count c = 0 := by
      refine List.count_eq_zero.2 fun member => noSlash ?_
      have isRoot := rootOf_mem_roots path
      simp only [roots, List.mem_cons, List.not_mem_nil, or_false] at isRoot
      rcases isRoot with root | root | root <;> simp_all
    have behind : trail.count c = 0 := by
      rcases trails with rfl | ⟨rfl, -⟩
      · rfl
      · exact List.count_eq_zero.2 (by simpa using noSlash)
    rw [whole, List.count_append, List.count_append, root, behind, Text.count_joinWith noSlash,
      ← Text.count_flatten_splitOn noSlash path, Nat.zero_add, Nat.add_zero]
    exact (names_sublist path).flatten.count_le c

end Uri

end ChoiceScript
