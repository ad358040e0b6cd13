/-!
# Lists of keyed entries

A list of key and value pairs in which the first entry of a key counts. The operations keep the
order of the entries that they do not touch: writing a present key replaces its value in place,
writing an absent key appends an entry. Each operation is described by what a lookup finds
afterwards and by the keys that it leaves.
-/
namespace Raml.Entries

universe u v

variable {κ : Type u} {α : Type v}

/-- The keys in order. -/
abbrev keys (entries : List (κ × α)) : List κ := entries.map Prod.fst

/-- Replace the values of the first entries by given ones. -/
def overlay : List (κ × α) → List α → List (κ × α)
  | [], _ => []
  | entries, [] => entries
  | (key, _) :: rest, value :: values => (key, value) :: overlay rest values

/-- The keys stay when values are replaced. -/
@[simp]
theorem keys_overlay (entries : List (κ × α)) (values : List α) :
    keys (overlay entries values) = keys entries := by
  induction entries generalizing values with
  | nil => simp [overlay]
  | cons entry rest ih =>
    cases values with
    | nil => simp [overlay]
    | cons value values => simpa [overlay] using ih values

variable [DecidableEq κ]

/-- The value under a key. -/
def get? (key : κ) : List (κ × α) → Option α
  | [] => none
  | (name, value) :: rest => if name = key then some value else get? key rest

/-- Whether a key is present. -/
def contains (key : κ) (entries : List (κ × α)) : Bool := (get? key entries).isSome

/-- Write a value under a key. -/
def insert (key : κ) (value : α) : List (κ × α) → List (κ × α)
  | [] => [(key, value)]
  | (name, old) :: rest =>
    if name = key then (name, value) :: rest else (name, old) :: insert key value rest

/-- Remove a key, the entries after it moving up. -/
def erase (key : κ) : List (κ × α) → List (κ × α)
  | [] => []
  | (name, value) :: rest => if name = key then rest else (name, value) :: erase key rest

/-- Remove a key, the last entry moving into its place. -/
def swapErase (key : κ) : List (κ × α) → List (κ × α)
  | [] => []
  | (name, value) :: rest =>
    if name = key then
      match rest.getLast? with
      | none => []
      | some last => last :: rest.dropLast
    else (name, value) :: swapErase key rest

/-- Give the entry of a key another key and value, in its place. -/
def replace (key renamed : κ) (value : α) : List (κ × α) → List (κ × α)
  | [] => []
  | (name, old) :: rest =>
    if name = key then (renamed, value) :: rest else (name, old) :: replace key renamed value rest

/-- A key is present exactly when some entry has it. -/
theorem contains_iff {key : κ} {entries : List (κ × α)} :
    contains key entries = true ↔ key ∈ keys entries := by
  induction entries with
  | nil => simp [contains, get?]
  | cons entry rest ih =>
    obtain ⟨name, value⟩ := entry
    by_cases same : name = key
    · simp [contains, get?, same]
    · have other : key ≠ name := fun h => same h.symm
      simpa [contains, get?, same, other] using ih

/-- A lookup fails exactly for an absent key. -/
theorem get?_eq_none {key : κ} {entries : List (κ × α)} :
    get? key entries = none ↔ key ∉ keys entries := by
  rw [← contains_iff, contains]
  cases get? key entries <;> simp

/-- A lookup finds only what an entry holds. -/
theorem mem_of_get? {key : κ} {value : α} {entries : List (κ × α)}
    (found : get? key entries = some value) : (key, value) ∈ entries := by
  induction entries with
  | nil => simp [get?] at found
  | cons entry rest ih =>
    obtain ⟨name, old⟩ := entry
    by_cases same : name = key
    · simp only [get?, same, ↓reduceIte, Option.some.injEq] at found
      simp [same, found]
    · simp only [get?, same, ↓reduceIte] at found
      exact List.mem_cons_of_mem _ (ih found)

/-- What a lookup finds after a write. -/
theorem get?_insert (key other : κ) (value : α) (entries : List (κ × α)) :
    get? other (insert key value entries) =
      if other = key then some value else get? other entries := by
  induction entries with
  | nil =>
    by_cases same : other = key
    · simp [insert, get?, same]
    · have apart : ¬key = other := fun h => same h.symm
      simp [insert, get?, same, apart]
  | cons entry rest ih =>
    obtain ⟨name, old⟩ := entry
    by_cases here : name = key <;> by_cases there : name = other <;>
      by_cases same : other = key <;> simp_all [insert, get?]

/-- The keys after a write. -/
theorem keys_insert (key : κ) (value : α) (entries : List (κ × α)) :
    keys (insert key value entries) =
      if key ∈ keys entries then keys entries else keys entries ++ [key] := by
  induction entries with
  | nil => simp [insert]
  | cons entry rest ih =>
    obtain ⟨name, old⟩ := entry
    by_cases here : name = key
    · simp [insert, here]
    · have other : key ≠ name := fun h => here h.symm
      simp only [keys] at ih
      by_cases inside : key ∈ rest.map Prod.fst <;> simp_all [insert, keys]

/-- A write keeps keys distinct. -/
theorem nodup_insert {key : κ} {value : α} {entries : List (κ × α)}
    (distinct : (keys entries).Nodup) : (keys (insert key value entries)).Nodup := by
  rw [keys_insert]
  split
  · exact distinct
  · rename_i absent
    rw [List.nodup_append]
    refine ⟨distinct, by simp, ?_⟩
    intro name inside other alone same
    simp only [List.mem_singleton] at alone
    exact absent (alone ▸ same ▸ inside)

/-- The keys after a removal. -/
theorem keys_erase (key : κ) (entries : List (κ × α)) :
    keys (erase key entries) = (keys entries).erase key := by
  induction entries with
  | nil => simp [erase]
  | cons entry rest ih =>
    obtain ⟨name, value⟩ := entry
    by_cases here : name = key
    · simp [erase, here]
    · simp_all [erase, keys]

/-- A removal keeps keys distinct. -/
theorem nodup_erase {key : κ} {entries : List (κ × α)} (distinct : (keys entries).Nodup) :
    (keys (erase key entries)).Nodup := by
  rw [keys_erase]
  exact distinct.erase key

/-- What a lookup finds after a removal from entries with distinct keys. -/
theorem get?_erase {key other : κ} {entries : List (κ × α)} (distinct : (keys entries).Nodup) :
    get? other (erase key entries) = if other = key then none else get? other entries := by
  induction entries with
  | nil => simp [erase, get?]
  | cons entry rest ih =>
    obtain ⟨name, value⟩ := entry
    rw [keys, List.map_cons, List.nodup_cons] at distinct
    by_cases here : name = key
    · subst here
      by_cases same : other = name
      · subst same
        simpa [erase] using get?_eq_none.mpr distinct.1
      · have apart : name ≠ other := fun h => same h.symm
        simp [erase, get?, same, apart]
    · have found := ih distinct.2
      by_cases there : name = other
      · subst there
        simp [erase, get?, here]
      · simpa [erase, get?, here, there] using found

/-- Every key after an entry is given another key is the new one or an old one. -/
theorem mem_keys_of_replace {key renamed name : κ} {value : α} {entries : List (κ × α)}
    (inside : name ∈ keys (replace key renamed value entries)) :
    name = renamed ∨ name ∈ keys entries := by
  induction entries with
  | nil => simp [replace] at inside
  | cons entry rest ih =>
    obtain ⟨first, old⟩ := entry
    by_cases here : first = key
    · simp only [replace, here, ↓reduceIte, keys, List.map_cons, List.mem_cons] at inside
      rcases inside with same | later
      · exact .inl same
      · exact .inr (List.mem_cons_of_mem _ later)
    · simp only [replace, here, ↓reduceIte, keys, List.map_cons, List.mem_cons] at inside
      rcases inside with same | later
      · exact .inr (by simp [same])
      · exact (ih later).imp id (List.mem_cons_of_mem _)

/-- Giving an entry an absent key keeps keys distinct. -/
theorem nodup_replace {key renamed : κ} {value : α} {entries : List (κ × α)}
    (distinct : (keys entries).Nodup) (absent : renamed ∉ keys entries) :
    (keys (replace key renamed value entries)).Nodup := by
  induction entries with
  | nil => simp [replace]
  | cons entry rest ih =>
    obtain ⟨name, old⟩ := entry
    simp only [keys, List.map_cons, List.nodup_cons, List.mem_cons, not_or] at distinct absent
    by_cases here : name = key
    · simp only [replace, here, ↓reduceIte, keys, List.map_cons, List.nodup_cons]
      exact ⟨absent.2, distinct.2⟩
    · simp only [replace, here, ↓reduceIte, keys, List.map_cons, List.nodup_cons]
      refine ⟨fun inside => ?_, ih distinct.2 absent.2⟩
      rcases mem_keys_of_replace inside with same | present
      · exact absent.1 same.symm
      · exact distinct.1 present

end Raml.Entries
