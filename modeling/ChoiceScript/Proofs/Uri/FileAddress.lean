import ChoiceScript.Proofs.Uri.Steady

/-! # Addresses of files

The address of a file of the local machine holds its path with all escaped that could be taken for a mark.
Behind one slash the path is the same however often the address is read, so the normal address of the file
is its own normal form.
-/

namespace ChoiceScript

namespace Percent

theorem isSafe_hexDigit : ∀ n < 16, isSafe (hexDigit n) = true := by decide

/-- What is escaped holds safe characters and percent signs only. -/
theorem mem_encode {c : Char} {text : Text} (member : c ∈ encode text) : isSafe c = true ∨ c = '%' := by
  obtain ⟨original, -, inside⟩ := List.mem_flatMap.1 member
  split at inside
  · rename_i safe
    rw [List.mem_singleton.1 inside]
    exact .inl safe
  · obtain ⟨byte, -, digits⟩ := List.mem_flatMap.1 inside
    have small := byte.toNat_lt
    simp only [List.mem_cons, List.not_mem_nil, or_false] at digits
    rcases digits with sign | rfl | rfl
    · exact .inr sign
    · exact .inl (isSafe_hexDigit _ (by omega))
    · exact .inl (isSafe_hexDigit _ (by omega))

theorem head?_encode {text : Text} (head : text.head? ≠ some '/') : (encode text).head? ≠ some '/' := by
  cases text with
  | nil => simp [encode]
  | cons c rest =>
      have one : encode (c :: rest) = (if isSafe c then [c] else (String.utf8EncodeChar c).flatMap fun byte =>
          ['%', hexDigit (byte.toNat / 16), hexDigit (byte.toNat % 16)]) ++ encode rest := List.flatMap_cons
      rw [one]
      split
      · exact head
      · cases bytes : String.utf8EncodeChar c with
        | nil =>
            have none := congrArg List.length bytes
            rw [String.length_utf8EncodeChar] at none
            exact absurd none c.utf8Size_pos.ne'
        | cons byte bytes => simp

end Percent

namespace Uri

theorem of_isSafe {c : Char} (safe : Percent.isSafe c = true) : (c ≠ '?' ∧ c ≠ '#') ∧ isKept c = true := by
  have ascii : c.toNat < 128 := of_decide_eq_true (Bool.and_eq_true_iff.1 safe).1
  refine Text.of_code (fun d => Percent.isSafe d = true → (d ≠ '?' ∧ d ≠ '#') ∧ isKept d = true) ?_ ascii safe
  decide +kernel

/-- The parts of the address of a file can be put together and read again. -/
theorem read_ofFilePath (path : Text) : Read ⟨"file".toList, [], Percent.encode path, [], []⟩ := by
  have plain : ∀ c ∈ Percent.encode path, (c ≠ '?' ∧ c ≠ '#') ∧ isKept c = true := by
    intro c member
    rcases Percent.mem_encode member with safe | rfl
    · exact of_isSafe safe
    · decide
  have isScheme : IsScheme ['f', 'i', 'l', 'e'] := ⟨by decide, List.all_eq_true.1 (by decide)⟩
  have sound : Sound ⟨"file".toList, [], Percent.encode path, [], []⟩ :=
    ⟨.inr isScheme, by simp, rfl, fun c member => (plain c member).1,
      fun c member => (plain c (by simpa using member)).2⟩
  have small : "file".toList.map Char.toLower = "file".toList := by decide
  exact ⟨sound, small, by simp, fun given => absurd rfl given⟩

/-- The address of a file has a normal form that stays, if the path starts with one slash. -/
theorem normalize_ofFilePath {rest : Text} (head : rest.head? ≠ some '/') :
    ∃ normal, normalize (ofFilePath ('/' :: rest)) = .ok normal ∧ normalize normal = .ok normal := by
  obtain ⟨uri, same⟩ : ∃ uri : Uri, uri = ⟨"file".toList, [], Percent.encode ('/' :: rest), [], []⟩ := ⟨_, rfl⟩
  have read : uri.Read := same ▸ read_ofFilePath _
  have escaped : uri.path = '/' :: Percent.encode rest := by
    rw [same]
    rfl
  have single := Percent.head?_encode head
  have shows : uri.showsAuthority = true := by
    have listed : isShown "file".toList = true := by decide
    rw [shows_iff (by rw [same]), escaped, same]
    exact ⟨listed, not_slashes_of_second single⟩
  have again : parse (ofFilePath ('/' :: rest)).toList = .ok uri := by
    rw [ofFilePath, String.toList_ofList, ← same]
    exact read.parse_render_shown shows (by simp [escaped])
  refine ⟨_, normalize_of_parse again, (normalize_normal_iff again (normalize_of_parse again)).2 ?_⟩
  obtain ⟨tail, whole, start⟩ := exists_normalPath_root single
  rw [← escaped] at whole
  exact steady_of_root whole start

end Uri

end ChoiceScript
