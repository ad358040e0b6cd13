import Raml.OrderedMap

/-!
# Weights of entries

The weight of a list of entries is the sum of the weights of its entries. Writing an entry adds at
most its weight, whether the key was present or not; the weight of an entry that is removed is taken
off.
-/
namespace Raml.Entries

universe u v

variable {κ : Type u} {α : Type v}

/-- The sum of the weights of the entries. -/
def weight (measure : κ → α → Nat) : List (κ × α) → Nat
  | [] => 0
  | (key, value) :: rest => measure key value + weight measure rest

variable [DecidableEq κ]

/-- A write adds at most the weight of what is written. -/
theorem weight_insert_le (measure : κ → α → Nat) (key : κ) (value : α) (entries : List (κ × α)) :
    weight measure (insert key value entries) ≤ weight measure entries + measure key value := by
  induction entries with
  | nil => simp [insert, weight]
  | cons entry rest ih =>
    obtain ⟨name, old⟩ := entry
    by_cases here : name = key
    · subst here
      simp only [insert, ↓reduceIte, weight]
      omega
    · simp only [insert, here, ↓reduceIte, weight]
      omega

/-- A removal takes off the weight of the removed entry. -/
theorem weight_erase (measure : κ → α → Nat) {key : κ} {value : α} {entries : List (κ × α)}
    (found : get? key entries = some value) :
    weight measure (erase key entries) + measure key value = weight measure entries := by
  induction entries with
  | nil => simp [get?] at found
  | cons entry rest ih =>
    obtain ⟨name, old⟩ := entry
    by_cases here : name = key
    · subst here
      simp only [get?, ↓reduceIte, Option.some.injEq] at found
      subst found
      simp only [erase, ↓reduceIte, weight]
      omega
    · simp only [get?, here, ↓reduceIte] at found
      have rest := ih found
      simp only [erase, here, ↓reduceIte, weight]
      omega

/-- A removal adds nothing. -/
theorem weight_erase_le (measure : κ → α → Nat) (key : κ) (entries : List (κ × α)) :
    weight measure (erase key entries) ≤ weight measure entries := by
  induction entries with
  | nil => simp [erase]
  | cons entry rest ih =>
    obtain ⟨name, old⟩ := entry
    by_cases here : name = key
    · simp [erase, here, weight]
    · simp only [erase, here, ↓reduceIte, weight]
      omega

/-- Writing a present key exchanges the weights of the values. -/
theorem weight_insert_of_get? (measure : κ → α → Nat) {key : κ} {old : α} (value : α)
    {entries : List (κ × α)} (found : get? key entries = some old) :
    weight measure (insert key value entries) + measure key old =
      weight measure entries + measure key value := by
  induction entries with
  | nil => simp [get?] at found
  | cons entry rest ih =>
    obtain ⟨name, first⟩ := entry
    by_cases here : name = key
    · subst here
      simp only [get?, ↓reduceIte, Option.some.injEq] at found
      subst found
      simp only [insert, ↓reduceIte, weight]
      omega
    · simp only [get?, here, ↓reduceIte] at found
      have rest := ih found
      simp only [insert, here, ↓reduceIte, weight]
      omega

/-- Giving an entry another key and value exchanges their weights. -/
theorem weight_replace (measure : κ → α → Nat) {key : κ} {old : α} (renamed : κ) (value : α)
    {entries : List (κ × α)} (found : get? key entries = some old) :
    weight measure (replace key renamed value entries) + measure key old =
      weight measure entries + measure renamed value := by
  induction entries with
  | nil => simp [get?] at found
  | cons entry rest ih =>
    obtain ⟨name, first⟩ := entry
    by_cases here : name = key
    · subst here
      simp only [get?, ↓reduceIte, Option.some.injEq] at found
      subst found
      simp only [replace, ↓reduceIte, weight]
      omega
    · simp only [get?, here, ↓reduceIte] at found
      have rest := ih found
      simp only [replace, here, ↓reduceIte, weight]
      omega

/-- Writing entries one after another adds at most their weight. -/
theorem weight_insertMany_le {β : Type v} (measure : String → β → Nat) (map : OrderedMap β)
    (entries : List (String × β)) :
    weight measure (map.insertMany entries).entries ≤
      weight measure map.entries + weight measure entries := by
  induction entries generalizing map with
  | nil => simp [OrderedMap.insertMany, weight]
  | cons entry rest ih =>
    have written := weight_insert_le measure entry.1 entry.2 map.entries
    have later := ih (map.insert entry.1 entry.2)
    simp only [OrderedMap.insertMany, List.foldl_cons, OrderedMap.insert, weight] at later ⊢
    omega

/-- The map of a list of entries weighs at most what the list does. -/
theorem weight_ofList_le {β : Type v} (measure : String → β → Nat)
    (entries : List (String × β)) :
    weight measure (OrderedMap.ofList entries).entries ≤ weight measure entries := by
  have bound := weight_insertMany_le measure OrderedMap.empty entries
  simpa [OrderedMap.ofList, OrderedMap.empty, weight] using bound

/-- The new name of an entry weighs no more than the old one did, when its value does not. -/
theorem weight_rename_le {β : Type v} (measure : String → β → Nat) {map : OrderedMap β}
    {name renamed : String} {old value : β} (found : map.get? name = some old)
    (lighter : measure renamed value ≤ measure name old) :
    weight measure (map.rename name renamed value).entries ≤ weight measure map.entries := by
  unfold OrderedMap.rename
  split
  · have exchanged := weight_replace measure renamed value
      (show get? name map.entries = _ from found)
    simp only at exchanged ⊢
    omega
  · have removed := weight_erase measure (show get? name map.entries = _ from found)
    have written := weight_insert_le measure renamed value (erase name map.entries)
    simp only [OrderedMap.insert, OrderedMap.erase]
    omega

end Raml.Entries
