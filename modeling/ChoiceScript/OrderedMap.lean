/-! # Ordered maps

A map from names whose entries stay in the order in which their names first came in. It is the list
of its entries, no two of which share a name.
-/

namespace ChoiceScript

/-- A map from names that keeps the order of its entries. -/
structure OrderedMap (α : Type) where
  entries : List (String × α)
  nodup : (entries.map (·.1)).Nodup
  deriving DecidableEq

namespace OrderedMap

variable {α β : Type}

def empty : OrderedMap α := ⟨[], List.nodup_nil⟩

instance : EmptyCollection (OrderedMap α) := ⟨empty⟩

instance : Inhabited (OrderedMap α) := ⟨empty⟩

def keys (map : OrderedMap α) : List String := map.entries.map (·.1)

def get? (map : OrderedMap α) (key : String) : Option α := map.entries.lookup key

def contains (map : OrderedMap α) (key : String) : Bool := (map.get? key).isSome

/-- Change the value of a name in a list of entries, or add it at the end. -/
def alterEntries (key : String) (change : Option α → α) : List (String × α) → List (String × α)
  | [] => [(key, change none)]
  | (name, value) :: rest =>
    if name = key then (name, change (some value)) :: rest
    else (name, value) :: alterEntries key change rest

theorem keys_alterEntries (key : String) (change : Option α → α) (entries : List (String × α)) :
    (alterEntries key change entries).map (·.1) =
      if key ∈ entries.map (·.1) then entries.map (·.1) else entries.map (·.1) ++ [key] := by
  induction entries with
  | nil => simp [alterEntries]
  | cons entry rest ih =>
    obtain ⟨name, value⟩ := entry
    unfold alterEntries
    by_cases same : name = key
    · simp [same]
    · have other : ¬ key = name := fun h => same h.symm
      simp only [same, if_false, List.map_cons, ih, List.mem_cons, other, false_or]
      split <;> simp

/-- Change the value of a name, or add it at the end. -/
def alter (map : OrderedMap α) (key : String) (change : Option α → α) : OrderedMap α where
  entries := alterEntries key change map.entries
  nodup := by
    rw [keys_alterEntries]
    split
    · exact map.nodup
    · rename_i absent
      rw [List.nodup_append]
      refine ⟨map.nodup, by simp, ?_⟩
      intro name member other single same
      rw [List.mem_singleton] at single
      exact absent (single ▸ same ▸ member)

/-- Give a name a value. A name that has one keeps its place. -/
def insert (map : OrderedMap α) (key : String) (value : α) : OrderedMap α :=
  map.alter key fun _ => value

/-- Give a name a value unless it has one. -/
def insertNew (map : OrderedMap α) (key : String) (value : α) : OrderedMap α :=
  map.alter key (·.getD value)

/-- Add a value to the list of a name. -/
def push (map : OrderedMap (List α)) (key : String) (value : α) : OrderedMap (List α) :=
  map.alter key fun values => values.getD [] ++ [value]

def erase (map : OrderedMap α) (key : String) : OrderedMap α where
  entries := map.entries.filter (·.1 ≠ key)
  nodup := map.nodup.sublist ((List.filter_sublist).map _)

/-- The map of a list of entries, where the last value of a name counts. -/
def ofList (entries : List (String × α)) : OrderedMap α :=
  entries.foldl (fun map entry => map.insert entry.1 entry.2) ∅

/-- After a change the names are those before and the changed one. -/
theorem keys_alter (map : OrderedMap α) (key : String) (change : Option α → α) :
    (map.alter key change).keys = if key ∈ map.keys then map.keys else map.keys ++ [key] :=
  keys_alterEntries key change map.entries

/-- Looking up a name passes an entry of another one. -/
theorem lookup_cons (name first : String) (value : α) (rest : List (String × α)) :
    ((first, value) :: rest).lookup name = if name = first then some value else rest.lookup name := by
  rw [List.lookup_cons]
  by_cases same : name = first
  · simp [same]
  · have : (name == first) = false := by simpa using same
    simp [same, this]

/-- A change affects the changed name only. -/
theorem get?_alter (map : OrderedMap α) (key : String) (change : Option α → α) (name : String) :
    (map.alter key change).get? name =
      if name = key then some (change (map.get? key)) else map.get? name := by
  obtain ⟨entries, nodup⟩ := map
  simp only [get?, alter]
  clear nodup
  induction entries with
  | nil => simp [alterEntries, lookup_cons]
  | cons entry rest ih =>
    obtain ⟨first, value⟩ := entry
    unfold alterEntries
    by_cases here : first = key
    · subst here
      by_cases same : name = first <;> simp [lookup_cons, same]
    · have there : ¬ key = first := fun h => here h.symm
      simp only [here, there, if_false, lookup_cons, ih]
      by_cases same : name = first
      · subst same
        simp [here]
      · simp [same]

/-- A name that is taken out has no value, and all others keep theirs. -/
theorem get?_erase (map : OrderedMap α) (key name : String) :
    (map.erase key).get? name = if name = key then none else map.get? name := by
  obtain ⟨entries, nodup⟩ := map
  simp only [get?, erase]
  clear nodup
  induction entries with
  | nil => simp
  | cons entry rest ih =>
    obtain ⟨first, value⟩ := entry
    rw [List.filter_cons]
    by_cases here : first = key
    · subst here
      by_cases same : name = first
      · simpa [same] using ih
      · simpa [lookup_cons, same] using ih
    · by_cases same : name = first
      · subst same
        simp [here]
      · simpa [here, lookup_cons, same] using ih

end OrderedMap

end ChoiceScript
