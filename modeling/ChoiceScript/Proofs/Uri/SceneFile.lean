import ChoiceScript.Index.Project
import ChoiceScript.Proofs.Uri.Rereading
import ChoiceScript.Proofs.Workspace.Checking

/-! # Where the file of a scene is looked for

The address of a scene's file is put together from that of the startup file. Where that one is normal and
its path starts with one slash, so are the address and the path of the scene's file, and a document is
stored and looked up by one and the same address.
-/

namespace ChoiceScript

namespace Path

variable {front last name : Text}

/-- Read from its end, a path is cut at its last slash. -/
theorem reverse_cut (absent : '/' ∉ last) :
    (front ++ '/' :: last).reverse.takeWhile (· ≠ '/') = last.reverse ∧
      (front ++ '/' :: last).reverse.dropWhile (· ≠ '/') = '/' :: front.reverse := by
  have bare : ∀ c ∈ last.reverse, decide (c ≠ '/') = true := by
    intro c member
    simp only [decide_eq_true_eq]
    rintro rfl
    exact absent (List.mem_reverse.1 member)
  rw [List.reverse_append, List.reverse_cons, List.append_assoc]
  exact ⟨Text.takeWhile_exact bare (by simp), Text.dropWhile_exact bare (by simp)⟩

theorem folder_append (absent : '/' ∉ last) :
    folder (front ++ '/' :: last) =
      if (front ++ ['/']).all (· = '/') then front ++ ['/'] else trimSlashes (front ++ ['/']) := by
  simp only [folder, (reverse_cut absent).2, List.reverse_cons, List.reverse_reverse]

theorem lastName_append (absent : '/' ∉ last) : lastName (front ++ '/' :: last) = last := by
  rw [lastName, (reverse_cut absent).1, List.reverse_reverse]

theorem trimSlashes_slash (path : Text) : trimSlashes (path ++ ['/']) = trimSlashes path := by
  simp [trimSlashes]

theorem trimSlashes_of_open {path : Text} (open_ : path.getLast? ≠ some '/') : trimSlashes path = path := by
  have ends : ∀ c ∈ path.reverse.head?, decide (c = '/') = false := by
    intro c last
    rw [List.head?_reverse] at last
    have other : c ≠ '/' := fun slash => open_ (slash ▸ last)
    simpa using other
  have kept : ([] ++ path.reverse).dropWhile (· = '/') = path.reverse :=
    Text.dropWhile_exact (by simp) ends
  rw [List.nil_append] at kept
  rw [trimSlashes, kept, List.reverse_reverse]

/-- A file beside one in a folder is in that folder. -/
theorem within_folder (absent : '/' ∉ last) (open_ : front.getLast? ≠ some '/')
    (relative : name.head? ≠ some '/') :
    within (folder (front ++ '/' :: last)) name = front ++ '/' :: name := by
  rw [folder_append absent, trimSlashes_slash, trimSlashes_of_open open_]
  by_cases empty : front = []
  · simp [empty, within, relative]
  · have other : ¬ (front ++ ['/']).all (· = '/') = true := by
      intro slashes
      rw [List.all_append, Bool.and_eq_true, List.all_eq_true] at slashes
      have final := slashes.1 _ (List.getLast_mem empty)
      rw [decide_eq_true_eq] at final
      exact open_ (by rw [List.getLast?_eq_some_getLast empty, final])
    rw [if_neg other, within, if_neg relative]
    simp [empty, open_]

/-- Behind names and their slashes a last name stands behind a slash. -/
theorem exists_front {names : List Text} (isName : ∀ part ∈ names, IsName part) : ∃ front : Text,
    front.getLast? ≠ some '/' ∧ ∀ name,
      '/' :: Text.joinWith '/' (names ++ [name]) = front ++ '/' :: name := by
  cases names with
  | nil => exact ⟨[], by simp, fun name => rfl⟩
  | cons first names =>
      obtain ⟨-, -, last, whole⟩ := joinWith_chain isName
      have filled : Text.joinWith '/' (first :: names) ≠ [] := fun none => by cases whole none
      refine ⟨'/' :: Text.joinWith '/' (first :: names), ?_, fun name => ?_⟩
      · rwa [List.getLast?_cons_of_ne_nil filled]
      · suffices ∀ first, Text.joinWith '/' (first :: names ++ [name]) =
            Text.joinWith '/' (first :: names) ++ '/' :: name by rw [this]; rfl
        clear isName last whole filled
        induction names with
        | nil => exact fun first => rfl
        | cons next names ih =>
            intro first
            have cut (others : List Text) : Text.joinWith '/' (first :: next :: others) =
                first ++ '/' :: Text.joinWith '/' (next :: others) := rfl
            have deeper := ih next
            simp only [List.cons_append] at deeper ⊢
            rw [cut, cut, deeper, List.append_assoc, List.cons_append]

/-- Behind a root every proper name may stand in the place of the last name. -/
theorem Layout.beside {root : Text} {names : List Text} (layout : Layout root (names ++ [last]))
    (rooted : root ≠ []) (proper : IsProper name) (absent : '/' ∉ name) : Layout root (names ++ [name]) := by
  refine layout_of_isProper layout.isRoot (fun part member => ?_) fun part member => ?_
  · rcases List.mem_append.1 member with inFolder | here
    · exact layout.isName part (List.mem_append_left _ inFolder)
    · rw [List.mem_singleton.1 here]
      exact ⟨proper.nonempty, absent⟩
  · rcases List.mem_append.1 member with inFolder | here
    · exact layout.isProper rooted part (List.mem_append_left _ inFolder)
    · rwa [List.mem_singleton.1 here]

end Path

namespace Percent

variable {c : Char} {text before after : Text}

/-- What starts no escape stands for itself. -/
theorem items_cons (other : ∀ high low rest, c = '%' → text = high :: low :: rest →
    hexValue? high = none ∨ hexValue? low = none) : items (c :: text) = .plain c :: items text := by
  rw [items.eq_def]
  split
  · rename_i same
    cases same
  · rename_i high low rest same
    obtain ⟨rfl, rfl⟩ := List.cons.inj same
    split
    · rename_i h l first second
      rcases other high low rest rfl rfl with none | none
      · rw [none] at first
        cases first
      · rw [none] at second
        cases second
    · rfl
  · rename_i same
    obtain ⟨rfl, rfl⟩ := List.cons.inj same
    rfl

theorem items_append_slash (before after : Text) :
    items (before ++ '/' :: after) = items before ++ .plain '/' :: items after := by
  fun_induction items before with
  | case1 => exact items_cons (by simp)
  | case2 high low rest h l first second ih =>
      simp only [List.cons_append, items, first, second, ih]
  | case3 high low rest other ih =>
      rw [List.cons_append, items_cons, ih, List.cons_append]
      intro first second more _ same
      obtain ⟨rfl, behind⟩ := List.cons.inj same
      obtain ⟨rfl, -⟩ := List.cons.inj behind
      cases firstDigit : hexValue? high with
      | none => exact .inl rfl
      | some h =>
          cases secondDigit : hexValue? low with
          | none => exact .inr rfl
          | some l => exact absurd secondDigit (other h l firstDigit)
  | case4 c rest other ih =>
      rw [List.cons_append, items_cons, ih, List.cons_append]
      intro high low more percent same
      have slash : hexValue? '/' = none := by decide
      rcases rest with _ | ⟨x, _ | ⟨y, rest⟩⟩
      · exact .inl (by rw [← (List.cons.inj same).1]; exact slash)
      · exact .inr (by rw [← (List.cons.inj (List.cons.inj same).2).1]; exact slash)
      · exact absurd rfl (other x y rest percent)

theorem decodeItems_append (begun : Option Begun) (before after : List Item) :
    decodeItems begun (before ++ .plain c :: after) =
      decodeItems begun before ++ c :: decodeItems none after := by
  fun_induction decodeItems begun before with
  | case1 begun => rfl
  | case2 begun d rest ih => simp only [List.cons_append, decodeItems, ih, List.append_assoc]
  | case3 begun byte rest written next same ih =>
      simp only [List.cons_append, decodeItems, same, ih, List.append_assoc]

/-- No escape reaches across a slash. -/
theorem decode_append_slash (before after : Text) :
    decode (before ++ '/' :: after) = decode before ++ '/' :: decode after := by
  rw [decode, items_append_slash, decodeItems_append]
  rfl

theorem decode_eq_self (plain : '%' ∉ text) : decode text = text := by
  induction text with
  | nil => rfl
  | cons c rest ih =>
      have other : c ≠ '%' := by
        rintro rfl
        exact plain List.mem_cons_self
      have later := ih fun member => plain (List.mem_cons_of_mem _ member)
      rw [decode] at later ⊢
      rw [items_cons fun _ _ _ same => absurd same other, decodeItems, later]
      rfl

end Percent

namespace Uri

open ChoiceScript.Path

variable {path front name tail : Text}

/-- In the folder of a normal path every proper name makes a normal path. -/
theorem normalPath_beside (normal : normalPath ('/' :: tail) = '/' :: tail)
    (single : tail.head? ≠ some '/') (open_ : ('/' :: tail).getLast? ≠ some '/') :
    ∃ front last, '/' :: tail = front ++ '/' :: last ∧ '/' ∉ last ∧ front.getLast? ≠ some '/' ∧
      ∀ name, IsProper name → '/' ∉ name → normalPath (front ++ '/' :: name) = front ++ '/' :: name ∧
        ∃ rest, front ++ '/' :: name = '/' :: rest ∧ rest.head? ≠ some '/' := by
  obtain ⟨names, trail, layout, trails, written⟩ :=
    exists_layout (show ['/'] ∈ roots by simp [roots]) (by simp) normal single
  obtain rfl : trail = [] := by
    refine trails.resolve_right fun both => open_ ?_
    rw [written, both.1, ← List.cons_append, List.getLast?_append_of_ne_nil _ (by simp)]
    rfl
  obtain ⟨names, last, rfl⟩ : ∃ before last, names = before ++ [last] := by
    refine (List.eq_nil_or_concat' names).resolve_left ?_
    rintro rfl
    exact open_ (written ▸ rfl)
  rw [List.append_nil] at written
  have isName : ∀ part ∈ names, IsName part := fun part member =>
    layout.isName part (List.mem_append_left _ member)
  obtain ⟨front, openFront, spelled⟩ := exists_front isName
  refine ⟨front, last, ?_, (layout.isName last (by simp)).2, openFront, fun name proper absent => ?_⟩
  · rw [written, spelled]
  · have beside := layout.beside (by simp) proper absent
    have head := beside.head (.inl rfl)
    have normal := (IsNormalPath.laidOut beside (by simp) (.inl rfl)).normalPath_eq
    rw [List.append_nil] at head normal
    rw [← spelled]
    exact ⟨normal, _, rfl, head⟩

/-- An address whose path starts with one slash is read again as it is put together. -/
theorem Read.parse_render_of_slash {uri : Uri} (read : uri.Read) (path : uri.path = '/' :: tail)
    (single : tail.head? ≠ some '/') : parse (render uri) = .ok uri := by
  have rooted : ∀ c ∈ uri.path.head?, c = '/' := by
    intro c first
    rw [path] at first
    exact (Option.some.inj first).symm
  refine read.parse_render (fun _ => unmarked_of_slash ?_) (fun _ => rooted) fun _ slashes => ?_
  · rcases body_cases uri with ⟨rest, slash⟩ | plain
    · rw [slash]
      rfl
    · rw [plain, path]
      rfl
  · rw [path, List.cons_prefix_cons] at slashes
    obtain ⟨rest, rfl⟩ := slashes.2
    exact single rfl

variable {address : String} {uri : Uri}

/-- A normal address whose path starts with one slash has normal parts. -/
theorem normalParts_eq_self (normal : normalize address = .ok address)
    (read : parse address.toList = .ok uri) (path : uri.path = '/' :: tail)
    (single : tail.head? ≠ some '/') : uri.normalParts = uri := by
  rw [normalize_of_parse read, Except.ok.injEq] at normal
  obtain ⟨rest, whole, ends⟩ := exists_normalPath_eq uri.path
  have root : rootOf uri.path = ['/'] := by
    rw [path]
    exact rootOf_append (show ['/'] ∈ roots by simp [roots]) single
  rw [root, List.singleton_append] at whole
  have again := (read_of_parse read).normalParts.parse_render_of_slash whole ends
  rw [← String.toList_ofList (l := render uri.normalParts), normal, read, Except.ok.injEq] at again
  exact again.symm

/-- The name of a file holds no escape, so it is the end of the path. -/
theorem fileName_eq {last : Text} (read : parse address.toList = .ok uri)
    (path : uri.path = front ++ '/' :: last) (absent : '/' ∉ last) (plain : '%' ∉ last)
    (given : last ≠ []) : fileName address = .ok (String.ofList last) := by
  have decoded : Percent.decode uri.path = Percent.decode front ++ '/' :: last := by
    rw [path, Percent.decode_append_slash, Percent.decode_eq_self plain]
  have open_ : (Percent.decode front ++ '/' :: last).getLast? ≠ some '/' := by
    rw [List.getLast?_append_of_ne_nil _ (by simp), List.getLast?_cons_of_ne_nil given]
    exact fun slash => absent (List.mem_of_getLast? slash)
  rw [fileName, read]
  simp only [Outcome.bind_ok, decoded, trimSlashes_of_open open_, lastName_append absent]
  rfl

/-- A simple name in the folder of a path keeps what reading says of the parts. -/
theorem Read.beside {last name : Text} (read : uri.Read) (path : uri.path = front ++ '/' :: last)
    (simple : IsSimple name) : Read { uri with path := front ++ '/' :: name } := by
  refine read.withPath (fun c member => ?_) fun given c first => ?_
  · rw [path, List.mem_append]
    rcases List.mem_append.1 member with inFront | inName
    · exact .inl (.inl inFront)
    rcases List.mem_cons.1 inName with rfl | inName
    · exact .inr (by decide)
    · obtain ⟨plain, -, high⟩ := simple.chars c inName
      refine .inr ⟨⟨?_, ?_⟩, isKept_of_high high⟩ <;> rintro rfl <;> exact absurd plain (by decide)
  · have rooted := read.rooted given
    rw [path] at rooted
    cases front with
    | nil => exact (Option.some.inj first).symm
    | cons d rest => exact rooted c first

/-- The name of a scene's file is a proper name with no mark in it. -/
theorem isProper_sceneFile {scene : String} (labels : ∀ c ∈ scene.toList, Text.isLabel c = true) :
    IsProper (scene ++ ".txt").toList ∧ '/' ∉ (scene ++ ".txt").toList ∧ '%' ∉ (scene ++ ".txt").toList := by
  have absent (mark : Char) (noLabel : Text.isLabel mark = false) (other : mark ∉ ".txt".toList) :
      mark ∉ (scene ++ ".txt").toList := by
    rw [String.toList_append]
    intro member
    rcases List.mem_append.1 member with inScene | inEnd
    · rw [labels mark inScene] at noLabel
      cases noLabel
    · exact other inEnd
  have length : 4 ≤ (scene ++ ".txt").toList.length := by
    rw [String.toList_append, List.length_append]
    exact Nat.le_add_left _ _
  refine ⟨⟨?_, ?_, ?_⟩, absent '/' (by decide) (by decide), absent '%' (by decide) (by decide)⟩
  all_goals
    intro same
    rw [same] at length
    exact absurd length (by decide)

end Uri

namespace ProjectIndex

open Uri

/-- The file of a scene is looked for under a normal address, which has all parts of the startup file's
address but for the last name of the path. -/
theorem sceneUri?_beside {index : ProjectIndex} {startup : String} {uri : Uri} {tail : Text}
    (stored : index.startupUri = some startup) (normal : normalize startup = .ok startup)
    (read : parse startup.toList = .ok uri) (path : uri.path = '/' :: tail)
    (single : tail.head? ≠ some '/') (open_ : uri.path.getLast? ≠ some '/') :
    (∃ front last, uri.path = front ++ '/' :: last ∧ '/' ∉ last ∧
      ∀ scene : String, (∀ c ∈ scene.toList, Text.isLabel c = true) →
        ∃ beside, index.sceneUri? scene = .ok (some beside) ∧ normalize beside = .ok beside ∧
          parse beside.toList = .ok { uri with path := front ++ '/' :: (scene ++ ".txt").toList } ∧
          fileName beside = .ok (scene ++ ".txt")) ∧
    ∀ scene other : String, (∀ c ∈ scene.toList, Text.isLabel c = true) →
      (∀ c ∈ other.toList, Text.isLabel c = true) → scene ≠ other →
        index.sceneUri? scene ≠ index.sceneUri? other := by
  have parts := normalParts_eq_self normal read path single
  have normalOwn : normalPath ('/' :: tail) = '/' :: tail := by
    rw [← path]
    exact congrArg Uri.path parts
  obtain ⟨front, last, split, absent, solid, beside⟩ := normalPath_beside normalOwn single (path ▸ open_)
  have found : ∀ scene : String, (∀ c ∈ scene.toList, Text.isLabel c = true) →
      ∃ beside, index.sceneUri? scene = .ok (some beside) ∧ normalize beside = .ok beside ∧
        parse beside.toList = .ok { uri with path := front ++ '/' :: (scene ++ ".txt").toList } ∧
        fileName beside = .ok (scene ++ ".txt") := by
    intro scene labels
    obtain ⟨proper, noSlash, noEscape⟩ := isProper_sceneFile labels
    obtain ⟨normalBeside, rest, whole, ends⟩ := beside _ proper noSlash
    have relative : (scene ++ ".txt").toList.head? ≠ some '/' := fun slash =>
      noSlash (List.mem_of_head? slash)
    obtain ⟨other, same⟩ : ∃ other : Uri,
        other = { uri with path := front ++ '/' :: (scene ++ ".txt").toList } := ⟨_, rfl⟩
    have made : sibling startup (scene ++ ".txt") = .ok (String.ofList (render other)) := by
      rw [sibling, read, same]
      simp only [Outcome.bind_ok, path, split, Path.within_folder absent solid relative]
      rfl
    have otherPath : other.path = '/' :: rest := by rw [same, ← whole]
    have again : parse (render other) = .ok other := by
      refine Read.parse_render_of_slash ?_ otherPath ends
      exact same ▸ (read_of_parse read).beside (split ▸ path) (isSimple_sceneFile labels)
    have otherParts : other.normalParts = other := by
      rw [same, Uri.normalParts, normalBeside, show Text.lower uri.authority = uri.authority from
        congrArg Uri.authority parts]
    have reread : parse (String.ofList (render other)).toList = .ok other := by
      rw [String.toList_ofList, again]
    have spelled : other.path = front ++ '/' :: (scene ++ ".txt").toList := by rw [same]
    refine ⟨String.ofList (render other), ?_, ?_, ?_, ?_⟩
    · simp only [sceneUri?, stored, made]
      rfl
    · rw [normalize_of_parse reread, otherParts]
    · rw [reread, same]
    · have named := fileName_eq reread spelled noSlash noEscape proper.nonempty
      rwa [String.ofList_toList] at named
  refine ⟨⟨front, last, path.trans split, absent, found⟩, fun scene other labels others apart same => ?_⟩
  obtain ⟨first, firstFound, -, -, firstName⟩ := found scene labels
  obtain ⟨second, secondFound, -, -, secondName⟩ := found other others
  rw [firstFound, secondFound, Except.ok.injEq, Option.some.injEq] at same
  rw [same, secondName, Except.ok.injEq] at firstName
  exact apart (String.append_left_inj _ |>.1 firstName).symm

/-- A project whose startup file has an authority and a query in its address. -/
def staged : ProjectIndex := { startupUri := some "http://host/game/startup.txt?draft" }

/-- Its scenes have files of their own, under normal addresses. -/
theorem sceneUri?_staged : ∃ beside, staged.sceneUri? "part-1" = .ok (some beside) ∧
    normalize beside = .ok beside ∧ fileName beside = .ok "part-1.txt" ∧
      staged.sceneUri? "part-1" ≠ staged.sceneUri? "part-2" := by
  have normal : normalize "http://host/game/startup.txt?draft" =
      .ok "http://host/game/startup.txt?draft" := by
    decide +kernel
  have read : parse "http://host/game/startup.txt?draft".toList =
      .ok ⟨"http".toList, "host".toList, '/' :: "game/startup.txt".toList, "draft".toList, []⟩ := by
    decide +kernel
  have labels : ∀ scene ∈ ["part-1", "part-2"], ∀ c ∈ scene.toList, Text.isLabel c = true := by
    simp only [List.forall_mem_cons, List.not_mem_nil, false_imp_iff, forall_true_iff, and_true]
    exact ⟨List.all_eq_true.1 (by decide +kernel), List.all_eq_true.1 (by decide +kernel)⟩
  obtain ⟨⟨front, last, -, -, found⟩, apart⟩ :=
    sceneUri?_beside (show staged.startupUri = some _ from rfl) normal read rfl (by decide) (by decide)
  obtain ⟨beside, looked, own, -, named⟩ := found "part-1" (labels _ (by simp))
  exact ⟨beside, looked, own, named, apart _ _ (labels _ (by simp)) (labels _ (by simp)) (by decide)⟩

end ProjectIndex

end ChoiceScript
