import Raml.Entries

/-!
# Ordered maps

A map from names to values that remembers in which order its names were first written. Two maps are
equal exactly when they have the same entries in the same order.
-/
namespace Raml

universe u v

/-- Entries with distinct names, in order. -/
structure OrderedMap (α : Type u) where
  /-- The entries. -/
  entries : List (String × α)
  /-- No name has two entries. -/
  distinct : (Entries.keys entries).Nodup

namespace OrderedMap

variable {α : Type u} {β : Type v}

/-- Maps with the same entries are equal. -/
theorem ext {left right : OrderedMap α} (same : left.entries = right.entries) : left = right := by
  cases left
  cases right
  simp_all

/-- Maps are compared by their entries. -/
instance [DecidableEq α] : DecidableEq (OrderedMap α) := fun left right =>
  decidable_of_iff (left.entries = right.entries) ⟨ext, fun same => same ▸ rfl⟩

/-- The map without entries. -/
def empty : OrderedMap α := ⟨[], by simp⟩

/-- There is a map, the one without entries. -/
instance : Inhabited (OrderedMap α) := ⟨empty⟩

/-- The names in order. -/
def keys (map : OrderedMap α) : List String := Entries.keys map.entries

/-- The number of entries. -/
def size (map : OrderedMap α) : Nat := map.entries.length

/-- Whether there is no entry. -/
def isEmpty (map : OrderedMap α) : Bool := map.entries.isEmpty

/-- The value under a name. -/
def get? (map : OrderedMap α) (name : String) : Option α := Entries.get? name map.entries

/-- Whether a name is present. -/
def contains (map : OrderedMap α) (name : String) : Bool := Entries.contains name map.entries

/-- Write a value: in the place of the name when it is present, at the end otherwise. -/
def insert (map : OrderedMap α) (name : String) (value : α) : OrderedMap α :=
  ⟨Entries.insert name value map.entries, Entries.nodup_insert map.distinct⟩

/-- Remove a name and keep the order of the others. -/
def erase (map : OrderedMap α) (name : String) : OrderedMap α :=
  ⟨Entries.erase name map.entries, Entries.nodup_erase map.distinct⟩

/-- Give the entry of a name another name and value. In its place, when the new name is absent;
otherwise the value goes to where the new name stands and the old entry is removed. -/
def rename (map : OrderedMap α) (name renamed : String) (value : α) : OrderedMap α :=
  if absent : renamed ∉ Entries.keys map.entries then
    ⟨Entries.replace name renamed value map.entries, Entries.nodup_replace map.distinct absent⟩
  else (map.erase name).insert renamed value

/-- Change every value. -/
def map (change : String → α → β) (source : OrderedMap α) : OrderedMap β :=
  ⟨source.entries.map fun entry => (entry.1, change entry.1 entry.2), by
    have same : (Entries.keys <| source.entries.map fun entry =>
        (entry.1, change entry.1 entry.2)) = Entries.keys source.entries := by
      simp [Entries.keys, Function.comp_def]
    exact same ▸ source.distinct⟩

/-- Replace the values of the first entries by given ones. -/
def overlay (map : OrderedMap α) (values : List α) : OrderedMap α :=
  ⟨Entries.overlay map.entries values, by
    rw [Entries.keys_overlay]
    exact map.distinct⟩

/-- Write entries one after another. -/
def insertMany (map : OrderedMap α) (entries : List (String × α)) : OrderedMap α :=
  entries.foldl (fun written entry => written.insert entry.1 entry.2) map

/-- The map of a list of entries: a name stands where it first occurs and has its last value. -/
def ofList (entries : List (String × α)) : OrderedMap α := empty.insertMany entries

/-- Write every entry of another map over this one. -/
def overwrite (map new : OrderedMap α) : OrderedMap α := map.insertMany new.entries

/-- Replacing the values of the first entries keeps the names and their order. -/
@[simp]
theorem keys_overlay (map : OrderedMap α) (values : List α) :
    (map.overlay values).keys = map.keys := Entries.keys_overlay map.entries values

/-- A change of every value keeps the names and their order. -/
@[simp]
theorem keys_map (change : String → α → β) (source : OrderedMap α) :
    (source.map change).keys = source.keys := by
  simp [keys, map, Entries.keys, Function.comp_def]

/-- A name is present exactly when it is one of the keys. -/
theorem contains_iff {map : OrderedMap α} {name : String} :
    map.contains name = true ↔ name ∈ map.keys := Entries.contains_iff

/-- What a lookup finds after a write. -/
theorem get?_insert (map : OrderedMap α) (name other : String) (value : α) :
    (map.insert name value).get? other = if other = name then some value else map.get? other :=
  Entries.get?_insert name other value map.entries

/-- The names after a write. -/
theorem keys_insert (map : OrderedMap α) (name : String) (value : α) :
    (map.insert name value).keys =
      if name ∈ map.keys then map.keys else map.keys ++ [name] :=
  Entries.keys_insert name value map.entries

/-- What a lookup finds after a removal. -/
theorem get?_erase (map : OrderedMap α) (name other : String) :
    (map.erase name).get? other = if other = name then none else map.get? other :=
  Entries.get?_erase map.distinct

/-- The names after a removal. -/
theorem keys_erase (map : OrderedMap α) (name : String) :
    (map.erase name).keys = map.keys.erase name := Entries.keys_erase name map.entries

end OrderedMap

end Raml
