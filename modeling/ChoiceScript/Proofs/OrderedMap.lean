import ChoiceScript.OrderedMap

/-! # Entries of ordered maps

An entry of a changed map is an old one or the one that the change made, so what holds of all entries
holds after a change if it holds of the entry that is made. A map that is given entries one after
another keeps the first one of each name, or all of them, and the names stay in the order in which
they first came.
-/

namespace ChoiceScript.OrderedMap

variable {α : Type} {map : OrderedMap α} {key : String} {value : α}

theorem mem_alterEntries {change : Option α → α} {entries : List (String × α)} {entry : String × α}
    (member : entry ∈ alterEntries key change entries) :
    entry ∈ entries ∨ entry = (key, change none) ∨
      ∃ old, (key, old) ∈ entries ∧ entry = (key, change (some old)) := by
  induction entries with
  | nil => exact .inr (.inl (by simpa [alterEntries] using member))
  | cons first rest ih =>
      obtain ⟨name, old⟩ := first
      unfold alterEntries at member
      split at member
      · rename_i same
        subst same
        rcases List.mem_cons.1 member with rfl | later
        · exact .inr (.inr ⟨old, by simp, rfl⟩)
        · exact .inl (by simp [later])
      · rcases List.mem_cons.1 member with rfl | later
        · exact .inl (by simp)
        · rcases ih later with kept | made | ⟨value, present, same⟩
          · exact .inl (by simp [kept])
          · exact .inr (.inl made)
          · exact .inr (.inr ⟨value, by simp [present], same⟩)

theorem forall_alter {holds : String × α → Prop} {change : Option α → α}
    (all : ∀ entry ∈ map.entries, holds entry) (new : holds (key, change none))
    (changed : ∀ old, holds (key, old) → holds (key, change (some old))) :
    ∀ entry ∈ (map.alter key change).entries, holds entry := by
  intro entry member
  rcases mem_alterEntries member with kept | rfl | ⟨old, present, rfl⟩
  · exact all entry kept
  · exact new
  · exact changed old (all _ present)

theorem forall_insertNew {holds : String × α → Prop} (all : ∀ entry ∈ map.entries, holds entry)
    (new : holds (key, value)) : ∀ entry ∈ (map.insertNew key value).entries, holds entry :=
  forall_alter all new fun _ held => held

theorem forall_push {map : OrderedMap (List α)} {holds : String → α → Prop}
    (all : ∀ entry ∈ map.entries, ∀ value ∈ entry.2, holds entry.1 value) (new : holds key value) :
    ∀ entry ∈ (map.push key value).entries, ∀ value ∈ entry.2, holds entry.1 value := by
  let each (entry : String × List α) : Prop := ∀ value ∈ entry.2, holds entry.1 value
  have changed : ∀ old, each (key, old) → each (key, old ++ [value]) := by
    intro old held other member
    rcases List.mem_append.1 member with kept | added
    · exact held other kept
    · rw [List.mem_singleton.1 added]
      exact new
  have kept : ∀ entry ∈ (map.push key value).entries, each entry :=
    forall_alter all (by simpa [each] using new) changed
  exact kept

theorem get?_insert (map : OrderedMap α) (key : String) (value : α) (name : String) :
    (map.insert key value).get? name = if name = key then some value else map.get? name :=
  get?_alter map key _ name

theorem contains_iff : map.contains key = true ↔ key ∈ map.keys := by
  obtain ⟨entries, nodup⟩ := map
  simp only [contains, get?, keys]
  clear nodup
  induction entries with
  | nil => simp
  | cons entry rest ih =>
      obtain ⟨first, other⟩ := entry
      rw [lookup_cons, List.map_cons, List.mem_cons]
      by_cases same : key = first
      · simp [same]
      · simp [same]

theorem mem_keys_insert {name : String} :
    name ∈ (map.insert key value).keys ↔ name = key ∨ name ∈ map.keys := by
  rw [← contains_iff, ← contains_iff, contains, contains, get?_insert]
  by_cases same : name = key
  · simp [same]
  · simp [same]

theorem get?_eq_none {name : String} : map.get? name = none ↔ name ∉ map.keys := by
  rw [← contains_iff, contains, Option.not_isSome_iff_eq_none]

@[simp] theorem keys_empty : (∅ : OrderedMap α).keys = [] := rfl

theorem keys_erase (map : OrderedMap α) (key : String) :
    (map.erase key).keys = map.keys.filter (· ≠ key) := by
  simp only [keys, erase, List.filter_map, Function.comp_def]

/-- A map holds the first of the values that each name was given. -/
structure KeepsFirst (map : OrderedMap α) (given : List (String × α)) : Prop where
  keys : map.keys = (given.map (·.1)).eraseDups
  get? : ∀ name, map.get? name = given.lookup name

/-- A map holds all the values that each name was given, in order. -/
structure KeepsAll (map : OrderedMap (List α)) (given : List (String × α)) : Prop where
  keys : map.keys = (given.map (·.1)).eraseDups
  get? : ∀ name, (map.get? name).getD [] = (given.filter (·.1 = name)).map (·.2)

/-- Give names values one after another. -/
def insertAll (map : OrderedMap α) (entries : List (String × α)) : OrderedMap α :=
  entries.foldl (fun map entry => map.insertNew entry.1 entry.2) map

/-- Add values to the lists of names one after another. -/
def pushAll (map : OrderedMap (List α)) (entries : List (String × α)) : OrderedMap (List α) :=
  entries.foldl (fun map entry => map.push entry.1 entry.2) map

section Folds

variable (map : OrderedMap α) (lists : OrderedMap (List α)) (entry : String × α)
  (before after : List (String × α))

@[simp] theorem insertAll_nil : map.insertAll [] = map := rfl

@[simp] theorem insertAll_singleton : map.insertAll [entry] = map.insertNew entry.1 entry.2 := rfl

@[simp] theorem insertAll_append :
    map.insertAll (before ++ after) = (map.insertAll before).insertAll after := List.foldl_append

@[simp] theorem pushAll_nil : lists.pushAll [] = lists := rfl

@[simp] theorem pushAll_singleton : lists.pushAll [entry] = lists.push entry.1 entry.2 := rfl

@[simp] theorem pushAll_append :
    lists.pushAll (before ++ after) = (lists.pushAll before).pushAll after := List.foldl_append

end Folds

/-- A changed name that is new comes after those before. -/
theorem keys_alter_of_keys {given : List String} (keys : map.keys = given.eraseDups)
    (change : Option α → α) : (map.alter key change).keys = (given ++ [key]).eraseDups := by
  rw [keys_alter, keys, List.eraseDups_append]
  by_cases present : key ∈ given
  · simp [present, List.removeAll]
  · simp [present, List.removeAll, List.eraseDups_cons]

variable {given : List (String × α)}

theorem keepsFirst_empty : KeepsFirst (∅ : OrderedMap α) [] := ⟨rfl, fun _ => rfl⟩

theorem keepsAll_empty : KeepsAll (∅ : OrderedMap (List α)) [] := ⟨rfl, fun _ => rfl⟩

theorem KeepsFirst.insertNew (keeps : map.KeepsFirst given) (key : String) (value : α) :
    (map.insertNew key value).KeepsFirst (given ++ [(key, value)]) where
  keys := by
    rw [OrderedMap.insertNew, keys_alter_of_keys keeps.keys, List.map_append]
    rfl
  get? name := by
    rw [OrderedMap.insertNew, get?_alter, List.lookup_append, lookup_cons, keeps.get?, keeps.get?]
    by_cases same : name = key
    · subst same
      cases given.lookup name <;> simp
    · simp [same]

theorem KeepsAll.push {map : OrderedMap (List α)} (keeps : map.KeepsAll given) (key : String)
    (value : α) : (map.push key value).KeepsAll (given ++ [(key, value)]) where
  keys := by
    rw [OrderedMap.push, keys_alter_of_keys keeps.keys, List.map_append]
    rfl
  get? name := by
    rw [OrderedMap.push, get?_alter, List.filter_append, List.map_append, ← keeps.get?]
    by_cases same : name = key
    · subst same
      simp
    · have other : ¬ key = name := fun equal => same equal.symm
      simp [same, other]

theorem KeepsFirst.insertAll (keeps : map.KeepsFirst given) (entries : List (String × α)) :
    (map.insertAll entries).KeepsFirst (given ++ entries) := by
  induction entries generalizing map given with
  | nil => simpa using keeps
  | cons entry rest ih =>
      rw [List.append_cons]
      exact ih (keeps.insertNew entry.1 entry.2)

/-- A name keeps its value, or gets the first that is given to it. -/
theorem get?_insertAll (map : OrderedMap α) (entries : List (String × α)) (name : String) :
    (map.insertAll entries).get? name = (map.get? name).or (entries.lookup name) := by
  induction entries generalizing map with
  | nil => simp
  | cons entry rest ih =>
      obtain ⟨first, value⟩ := entry
      have step : map.insertAll ((first, value) :: rest) = (map.insertNew first value).insertAll rest := rfl
      rw [step, ih, OrderedMap.insertNew, get?_alter, lookup_cons]
      by_cases same : name = first
      · subst same
        cases map.get? name <;> simp
      · simp [same]

theorem KeepsAll.pushAll {map : OrderedMap (List α)} (keeps : map.KeepsAll given)
    (entries : List (String × α)) : (map.pushAll entries).KeepsAll (given ++ entries) := by
  induction entries generalizing map given with
  | nil => simpa using keeps
  | cons entry rest ih =>
      rw [List.append_cons]
      exact ih (keeps.push entry.1 entry.2)

theorem KeepsFirst.mem_keys (keeps : map.KeepsFirst given) {name : String} :
    name ∈ map.keys ↔ ∃ value, (name, value) ∈ given := by
  simp [keeps.keys, List.mem_eraseDups]

theorem lookup_eq_none {entries : List (String × α)} {name : String}
    (absent : name ∉ entries.map (·.1)) : entries.lookup name = none := by
  rw [List.lookup_eq_none_iff]
  intro entry member
  rw [bne_iff_ne]
  rintro rfl
  exact absent (List.mem_map_of_mem member)

theorem mem_of_get? {name : String} (has : map.get? name = some value) : (name, value) ∈ map.entries := by
  obtain ⟨before, after, same, -⟩ := List.lookup_eq_some_iff.1 has
  simp [same]

/-- The value of a name among the entries that are kept is its value, if that is kept. -/
theorem lookup_filter (map : OrderedMap α) (keep : α → Bool) (name : String) :
    (map.entries.filter fun entry => keep entry.2).lookup name = (map.get? name).filter keep := by
  obtain ⟨entries, nodup⟩ := map
  simp only [get?]
  induction entries with
  | nil => rfl
  | cons entry rest ih =>
      obtain ⟨first, value⟩ := entry
      obtain ⟨absent, later⟩ := List.nodup_cons.1 nodup
      have kept := ih later
      rw [List.filter_cons, lookup_cons]
      by_cases same : name = first
      · subst same
        rw [lookup_eq_none absent] at kept
        by_cases keeps : keep value = true
        · simp [keeps, Option.filter]
        · simp [keeps, kept, Option.filter]
      · by_cases keeps : keep value = true
        · simp [keeps, same, kept, lookup_cons]
        · simp [keeps, same, kept]

end ChoiceScript.OrderedMap
