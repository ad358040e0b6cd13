import Raml.OrderedMap

/-!
# Laws of ordered maps

What a lookup finds in a map whose values were changed, and which writes change nothing. A present
key divides the entries into those before and after its own, and a write under it touches neither
part. Names stand in the order in which they were first written, and of several writes of a name the
last one counts.
-/
namespace Raml

universe u v w

namespace Entries

variable {κ : Type u} {α : Type v}

/-- Giving the first entries values of their own changes those, and the other values replace those
of the others. -/
theorem overlay_append (change : κ → α → α) (entries rest : List (κ × α)) (values : List α) :
    overlay (entries ++ rest) ((entries.map fun entry => change entry.1 entry.2) ++ values) =
      (entries.map fun entry => (entry.1, change entry.1 entry.2)) ++ overlay rest values := by
  induction entries with
  | nil => rfl
  | cons entry others ih => simp only [List.map_cons, List.cons_append, overlay, ih]

/-- Giving every entry a value of its own changes all values. -/
theorem overlay_map (change : κ → α → α) (entries : List (κ × α)) :
    overlay entries (entries.map fun entry => change entry.1 entry.2) =
      entries.map fun entry => (entry.1, change entry.1 entry.2) := by
  have all := overlay_append change entries [] []
  simpa only [List.append_nil, overlay] using all

/-- Without values to replace them the entries stay. -/
theorem overlay_nil (entries : List (κ × α)) : overlay entries [] = entries := by
  cases entries <;> rfl

variable [DecidableEq κ]

/-- Of entries with distinct keys each one is found. -/
theorem get?_of_mem {key : κ} {value : α} {entries : List (κ × α)}
    (distinct : (keys entries).Nodup) (inside : (key, value) ∈ entries) :
    get? key entries = some value := by
  induction entries with
  | nil => contradiction
  | cons entry rest ih =>
    obtain ⟨name, old⟩ := entry
    rw [keys, List.map_cons, List.nodup_cons] at distinct
    rcases List.mem_cons.mp inside with same | later
    · cases same
      simp [get?]
    · have apart : name ≠ key := by
        intro same
        exact distinct.1 (List.mem_map.mpr ⟨(key, value), later, same.symm⟩)
      simpa [get?, apart] using ih distinct.2 later

/-- A lookup among changed values finds the changed value. -/
theorem get?_map {β : Type w} (change : κ → α → β) (key : κ) (entries : List (κ × α)) :
    get? key (entries.map fun entry => (entry.1, change entry.1 entry.2)) =
      (get? key entries).map (change key) := by
  induction entries with
  | nil => rfl
  | cons entry rest ih =>
    obtain ⟨name, value⟩ := entry
    by_cases here : name = key
    · subst here
      simp [get?]
    · simpa [get?, here] using ih

/-- Values are changed before a write as well as after it. -/
theorem map_insert {β : Type w} (change : κ → α → β) (key : κ) (value : α)
    (entries : List (κ × α)) :
    (insert key value entries).map (fun entry => (entry.1, change entry.1 entry.2)) =
      insert key (change key value)
        (entries.map fun entry => (entry.1, change entry.1 entry.2)) := by
  induction entries with
  | nil => rfl
  | cons entry rest ih =>
    obtain ⟨name, old⟩ := entry
    by_cases here : name = key
    · subst here
      simp [insert]
    · simpa [insert, here] using ih

/-- A present key divides the entries, and a write under it changes its own entry only. -/
theorem exists_split {key : κ} {old : α} {entries : List (κ × α)}
    (found : get? key entries = some old) :
    ∃ before after, entries = before ++ (key, old) :: after ∧
      ∀ value, insert key value entries = before ++ (key, value) :: after := by
  induction entries with
  | nil => simp [get?] at found
  | cons entry rest ih =>
    obtain ⟨name, first⟩ := entry
    by_cases here : name = key
    · subst here
      simp only [get?, ↓reduceIte, Option.some.injEq] at found
      subst found
      exact ⟨[], rest, rfl, fun value => by simp [insert]⟩
    · simp only [get?, here, ↓reduceIte] at found
      obtain ⟨before, after, same, written⟩ := ih found
      refine ⟨(name, first) :: before, after, by simp [same], fun value => ?_⟩
      simp [insert, here, written value]

/-- Writing the value that is there changes nothing. -/
theorem insert_of_get? {key : κ} {value : α} {entries : List (κ × α)}
    (found : get? key entries = some value) : insert key value entries = entries := by
  obtain ⟨before, after, same, written⟩ := exists_split found
  rw [written, ← same]

/-- Of two writes under one key the last counts. -/
theorem insert_insert (key : κ) (first last : α) (entries : List (κ × α)) :
    insert key last (insert key first entries) = insert key last entries := by
  induction entries with
  | nil => simp [insert]
  | cons entry rest ih =>
    obtain ⟨name, old⟩ := entry
    by_cases here : name = key
    · simp [insert, here]
    · simpa [insert, here] using ih

/-- A write under a present key may as well come after a write under another key. -/
theorem insert_comm {key other : κ} (value written : α) {entries : List (κ × α)}
    (present : key ∈ keys entries) (apart : key ≠ other) :
    insert other written (insert key value entries) =
      insert key value (insert other written entries) := by
  induction entries with
  | nil => simp at present
  | cons entry rest ih =>
    obtain ⟨name, old⟩ := entry
    by_cases here : name = key
    · subst here
      simp [insert, apart]
    · have later : key ∈ keys rest := by
        rcases List.mem_cons.mp present with same | inside
        · exact absurd same.symm here
        · exact inside
      by_cases there : name = other
      · subst there
        simp [insert, here]
      · simpa [insert, here, there] using ih later

/-- Writing under a missing key appends an entry. -/
theorem insert_of_not_mem {key : κ} (value : α) {entries : List (κ × α)}
    (missing : key ∉ keys entries) : insert key value entries = entries ++ [(key, value)] := by
  induction entries with
  | nil => rfl
  | cons entry rest ih =>
    obtain ⟨name, old⟩ := entry
    rw [keys, List.map_cons, List.mem_cons, not_or] at missing
    simp [insert, Ne.symm missing.1, ih missing.2]

/-- A write under the key of an entry changes that entry, when none before it has the key. -/
theorem insert_append {key : κ} {old : α} (value : α) {before after : List (κ × α)}
    (absent : key ∉ keys before) :
    insert key value (before ++ (key, old) :: after) = before ++ (key, value) :: after := by
  induction before with
  | nil => simp [insert]
  | cons entry rest ih =>
    obtain ⟨name, first⟩ := entry
    simp only [keys, List.map_cons, List.mem_cons, not_or] at absent
    have apart : name ≠ key := fun same => absent.1 same.symm
    simpa [insert, apart] using ih absent.2

/-- Of distinct keys the replaced one is gone. -/
theorem mem_keys_replace {key renamed name : κ} {value : α} {entries : List (κ × α)}
    (distinct : (keys entries).Nodup) (inside : name ∈ keys (replace key renamed value entries)) :
    name = renamed ∨ name ∈ keys entries ∧ name ≠ key := by
  induction entries with
  | nil => simp [replace] at inside
  | cons entry rest ih =>
    obtain ⟨first, old⟩ := entry
    rw [keys, List.map_cons, List.nodup_cons] at distinct
    by_cases here : first = key
    · subst here
      simp only [replace, ↓reduceIte, keys, List.map_cons, List.mem_cons] at inside ⊢
      rcases inside with same | later
      · exact .inl same
      · exact .inr ⟨.inr later, fun same => distinct.1 (same ▸ later)⟩
    · simp only [replace, here, ↓reduceIte, keys, List.map_cons, List.mem_cons] at inside ⊢
      rcases inside with same | later
      · exact .inr ⟨.inl same, fun other => here (same ▸ other)⟩
      · exact (ih distinct.2 later).imp id fun present => ⟨.inr present.1, present.2⟩

/-- A key that is written and removed is as removed. -/
theorem erase_insert (key : κ) (value : α) (entries : List (κ × α)) :
    erase key (insert key value entries) = erase key entries := by
  induction entries with
  | nil => simp [insert, erase]
  | cons entry rest ih =>
    obtain ⟨name, old⟩ := entry
    by_cases here : name = key <;> simp [insert, erase, here, ih]

/-- Removing a key is leaving out the entries that have it. -/
theorem erase_eq_filter {key : κ} {entries : List (κ × α)} (distinct : (keys entries).Nodup) :
    erase key entries = entries.filter fun entry => entry.1 ≠ key := by
  induction entries with
  | nil => rfl
  | cons entry rest ih =>
    obtain ⟨name, value⟩ := entry
    rw [keys, List.map_cons, List.nodup_cons] at distinct
    by_cases here : name = key
    · subst here
      have others : rest.filter (fun entry => entry.1 ≠ name) = rest := by
        rw [List.filter_eq_self]
        intro entry inside
        have apart : entry.1 ≠ name := fun same =>
          distinct.1 (List.mem_map.mpr ⟨entry, inside, same⟩)
        simpa using apart
      rw [List.filter_cons_of_neg (by simp), others]
      simp [erase]
    · rw [List.filter_cons_of_pos (by simpa using here), ← ih distinct.2]
      simp [erase, here]

/-- Giving the entry of a key another key and value is doing so wherever the key is. -/
theorem replace_eq_map {key : κ} (renamed : κ) (value : α) {entries : List (κ × α)}
    (distinct : (keys entries).Nodup) :
    replace key renamed value entries =
      entries.map fun entry => if entry.1 = key then (renamed, value) else entry := by
  induction entries with
  | nil => rfl
  | cons entry rest ih =>
    obtain ⟨name, old⟩ := entry
    rw [keys, List.map_cons, List.nodup_cons] at distinct
    by_cases here : name = key
    · subst here
      have others : rest.map (fun entry => if entry.1 = name then (renamed, value) else entry) =
          rest := by
        conv => rhs; rw [← List.map_id rest]
        apply List.map_congr_left
        intro entry inside
        exact if_neg fun same => distinct.1 (List.mem_map.mpr ⟨entry, inside, same⟩)
      rw [List.map_cons, others]
      simp [replace]
    · rw [List.map_cons, ← ih distinct.2]
      simp [replace, here]

/-- Writing under a present key is writing wherever the key is. -/
theorem insert_eq_map {key : κ} (value : α) {entries : List (κ × α)}
    (distinct : (keys entries).Nodup) (present : key ∈ keys entries) :
    insert key value entries =
      entries.map fun entry => if entry.1 = key then (key, value) else entry := by
  rw [← replace_eq_map key value distinct]
  induction entries with
  | nil => simp at present
  | cons entry rest ih =>
    obtain ⟨name, old⟩ := entry
    rw [keys, List.map_cons, List.nodup_cons] at distinct
    by_cases here : name = key
    · simp [insert, replace, here]
    · have later : key ∈ keys rest :=
        (List.mem_cons.mp present).resolve_left fun same => here same.symm
      simp only [insert, replace, here, ↓reduceIte, ih distinct.2 later]

/-- A replaced entry touches no other key. -/
theorem get?_replace_of_ne {key renamed other : κ} {value : α} {entries : List (κ × α)}
    (apart : other ≠ key) (new : other ≠ renamed) :
    get? other (replace key renamed value entries) = get? other entries := by
  induction entries with
  | nil => rfl
  | cons entry rest ih =>
    obtain ⟨first, old⟩ := entry
    by_cases here : first = key
    · subst here
      simp [replace, get?, apart.symm, new.symm]
    · simp [replace, here, get?, ih]

/-- A lookup in two lists of entries looks into the first one first. -/
theorem get?_append (key : κ) (first second : List (κ × α)) :
    get? key (first ++ second) = (get? key first).or (get? key second) := by
  induction first with
  | nil => rfl
  | cons entry rest ih =>
    obtain ⟨name, value⟩ := entry
    rw [List.cons_append, get?, get?]
    split
    · rfl
    · exact ih

/-- A lookup in entries that are picked by their keys. -/
theorem get?_filter (key : κ) (picks : κ → Bool) (entries : List (κ × α)) :
    get? key (entries.filter fun entry => picks entry.1) =
      if picks key then get? key entries else none := by
  induction entries with
  | nil => simp [get?]
  | cons entry rest ih =>
    obtain ⟨name, value⟩ := entry
    by_cases same : name = key
    · cases picked : picks key <;> simp [same, picked, get?, ih]
    · cases picked : picks name <;> simp [same, picked, get?, ih]

/-- Keys that do not repeat are all first occurrences. -/
theorem eraseDups_of_nodup {keys : List κ} (distinct : keys.Nodup) : keys.eraseDups = keys := by
  induction keys with
  | nil => rfl
  | cons key rest ih =>
    rw [List.nodup_cons] at distinct
    have others : rest.filter (fun other => !other == key) = rest := by
      rw [List.filter_eq_self]
      intro other inside
      have apart : other ≠ key := fun same => distinct.1 (same ▸ inside)
      simpa using apart
    rw [List.eraseDups_cons, others, ih distinct.2]

/-- Entries with distinct keys are given by the order of the keys and by what a lookup finds. -/
theorem eq_of_get? {entries others : List (κ × α)} (distinct : (keys entries).Nodup)
    (same : keys entries = keys others) (found : ∀ key, get? key entries = get? key others) :
    entries = others := by
  induction entries generalizing others with
  | nil => exact (List.map_eq_nil_iff.mp same.symm).symm
  | cons entry rest ih =>
    cases others with
    | nil => simp at same
    | cons other later =>
      obtain ⟨key, value⟩ := entry
      obtain ⟨name, old⟩ := other
      rw [keys, keys, List.map_cons, List.map_cons, List.cons.injEq] at same
      rw [keys, List.map_cons, List.nodup_cons] at distinct
      obtain ⟨rfl : key = name, tails⟩ := same
      have here := found key
      rw [get?, get?, if_pos rfl, if_pos rfl, Option.some.injEq] at here
      subst here
      congr 1
      refine ih distinct.2 tails fun other => ?_
      by_cases own : key = other
      · subst own
        have absent : key ∉ keys later := by
          rw [keys, ← tails]
          exact distinct.1
        rw [get?_eq_none.mpr distinct.1, get?_eq_none.mpr absent]
      · have after := found other
        rwa [get?, get?, if_neg own, if_neg own] at after

end Entries

namespace OrderedMap

variable {α : Type u} {β : Type v}

/-- A name is present exactly when a lookup finds a value. -/
theorem mem_keys_iff {map : OrderedMap α} {name : String} :
    name ∈ map.keys ↔ ∃ value, map.get? name = some value := by
  rw [← contains_iff, contains, Entries.contains, Option.isSome_iff_exists]
  rfl

/-- A lookup finds exactly what the entry of a name holds. -/
theorem get?_eq_some {map : OrderedMap α} {name : String} {value : α} :
    map.get? name = some value ↔ (name, value) ∈ map.entries :=
  ⟨Entries.mem_of_get?, Entries.get?_of_mem map.distinct⟩

/-- A lookup fails exactly for an absent name. -/
theorem get?_eq_none {map : OrderedMap α} {name : String} :
    map.get? name = none ↔ name ∉ map.keys := Entries.get?_eq_none

/-- A lookup among changed values finds the changed value. -/
theorem get?_map (change : String → α → β) (source : OrderedMap α) (name : String) :
    (source.map change).get? name = (source.get? name).map (change name) :=
  Entries.get?_map change name source.entries

/-- Values are changed before a write as well as after it. -/
theorem map_insert (change : String → α → β) (source : OrderedMap α) (name : String) (value : α) :
    (source.insert name value).map change = (source.map change).insert name (change name value) :=
  ext (Entries.map_insert change name value source.entries)

/-- A present name divides the entries, and a write under it changes its own entry only. -/
theorem exists_split {map : OrderedMap α} {name : String} {old : α}
    (found : map.get? name = some old) :
    ∃ before after, map.entries = before ++ (name, old) :: after ∧
      ∀ value, (map.insert name value).entries = before ++ (name, value) :: after :=
  Entries.exists_split found

/-- Writing the value that is there changes nothing. -/
theorem insert_of_get? {map : OrderedMap α} {name : String} {value : α}
    (found : map.get? name = some value) : map.insert name value = map :=
  ext (Entries.insert_of_get? found)

/-- Of two writes under one name the last counts. -/
theorem insert_insert (map : OrderedMap α) (name : String) (first last : α) :
    (map.insert name first).insert name last = map.insert name last :=
  ext (Entries.insert_insert name first last map.entries)

/-- A name that is written and removed is as removed. -/
theorem erase_insert (map : OrderedMap α) (name : String) (value : α) :
    (map.insert name value).erase name = map.erase name :=
  ext (Entries.erase_insert name value map.entries)

/-- Names may be removed in either order. -/
theorem erase_comm (map : OrderedMap α) (name other : String) :
    (map.erase name).erase other = (map.erase other).erase name := by
  apply ext
  show Entries.erase other (Entries.erase name map.entries) =
    Entries.erase name (Entries.erase other map.entries)
  rw [Entries.erase_eq_filter (Entries.nodup_erase map.distinct),
    Entries.erase_eq_filter (Entries.nodup_erase map.distinct),
    Entries.erase_eq_filter map.distinct, Entries.erase_eq_filter map.distinct,
    List.filter_filter, List.filter_filter]
  simp only [Bool.and_comm]

/-- A write under a present name may as well come after a write under another name. -/
theorem insert_comm {map : OrderedMap α} {name other : String} (value written : α)
    (present : name ∈ map.keys) (apart : name ≠ other) :
    (map.insert name value).insert other written = (map.insert other written).insert name value :=
  ext (Entries.insert_comm value written present apart)

/-- A write under the name of an entry changes that entry only. -/
theorem entries_insert {map : OrderedMap α} {name : String} {old : α} (value : α)
    {before after : List (String × α)} (entries : map.entries = before ++ (name, old) :: after) :
    (map.insert name value).entries = before ++ (name, value) :: after := by
  have distinct := map.distinct
  rw [entries, Entries.keys, List.map_append, List.map_cons] at distinct
  have absent : name ∉ Entries.keys before := fun inside =>
    (List.nodup_append.mp distinct).2.2 name inside name List.mem_cons_self rfl
  show Entries.insert name value map.entries = _
  rw [entries, Entries.insert_append value absent]

/-- A renamed entry is found under its new name. -/
theorem get?_rename {map : OrderedMap α} {name renamed : String} {value : α}
    (present : name ∈ map.keys) : (map.rename name renamed value).get? renamed = some value := by
  unfold rename
  split
  · obtain ⟨entry, inside, same⟩ := List.mem_map.mp present
    refine get?_eq_some.mpr ?_
    show _ ∈ Entries.replace name renamed value map.entries
    rw [Entries.replace_eq_map renamed value map.distinct]
    exact List.mem_map.mpr ⟨entry, inside, if_pos same⟩
  · rw [get?_insert, if_pos rfl]

/-- A renamed entry touches no other name. -/
theorem get?_rename_of_ne {map : OrderedMap α} {name renamed other : String} {value : α}
    (apart : other ≠ name) (new : other ≠ renamed) :
    (map.rename name renamed value).get? other = map.get? other := by
  unfold rename
  split
  · exact Entries.get?_replace_of_ne apart new
  · rw [get?_insert, if_neg new, get?_erase, if_neg apart]

/-- A write under a present name keeps the names. -/
theorem keys_insert_of_mem {map : OrderedMap α} {name : String} (value : α)
    (present : name ∈ map.keys) : (map.insert name value).keys = map.keys := by
  rw [keys_insert, if_pos present]

/-- Giving every entry a value of its own changes all values. -/
theorem overlay_map (change : String → α → α) (source : OrderedMap α) :
    source.overlay (source.entries.map fun entry => change entry.1 entry.2) = source.map change :=
  ext (Entries.overlay_map change source.entries)

/-- Replacing the first values by themselves changes nothing. -/
theorem overlay_values {map : OrderedMap α} {entries rest : List (String × α)} (values : List α)
    (split : map.entries = entries ++ rest)
    (kept : Entries.overlay rest values = rest) :
    map.overlay (entries.map Prod.snd ++ values) = map := by
  apply ext
  show Entries.overlay map.entries _ = _
  have same := Entries.overlay_append (fun _ value => value) entries rest values
  rw [split, same, kept]
  simp

/-- A change that keeps every value changes nothing. -/
theorem map_of_forall {change : String → α → α} {source : OrderedMap α}
    (kept : ∀ entry ∈ source.entries, change entry.1 entry.2 = entry.2) :
    source.map change = source := by
  apply ext
  conv => rhs; rw [← List.map_id source.entries]
  apply List.map_congr_left
  intro entry inside
  simp [kept entry inside]

/-- Every name of a map occurs first where it stands. -/
theorem eraseDups_keys (map : OrderedMap α) : map.keys.eraseDups = map.keys :=
  Entries.eraseDups_of_nodup map.distinct

/-- The names after several writes are those before and those that were written, in the order in
which they first occur. -/
theorem keys_insertMany (map : OrderedMap α) (entries : List (String × α)) :
    (map.insertMany entries).keys = (map.keys ++ Entries.keys entries).eraseDups := by
  induction entries generalizing map with
  | nil =>
    have names : map.keys ++ Entries.keys ([] : List (String × α)) = map.keys := List.append_nil _
    rw [names, eraseDups_keys]
    rfl
  | cons entry rest ih =>
    have step : map.insertMany (entry :: rest) = (map.insert entry.1 entry.2).insertMany rest := rfl
    have names : Entries.keys (entry :: rest) = entry.1 :: Entries.keys rest := rfl
    rw [step, ih, keys_insert, names]
    split
    · rename_i present
      rw [List.eraseDups_append, List.eraseDups_append, List.cons_removeAll]
      simp [present]
    · rw [List.append_assoc, List.singleton_append]

/-- The names after several writes are those before and those that were written. -/
theorem mem_keys_insertMany {map : OrderedMap α} {entries : List (String × α)} {name : String} :
    name ∈ (map.insertMany entries).keys ↔ name ∈ map.keys ∨ name ∈ Entries.keys entries := by
  rw [keys_insertMany, List.mem_eraseDups, List.mem_append]

/-- The names of the map of a list are those of the list, in the order in which they first occur. -/
theorem keys_ofList (entries : List (String × α)) :
    (ofList entries).keys = (Entries.keys entries).eraseDups :=
  keys_insertMany empty entries

/-- The names of the map of a list are those of the list. -/
theorem mem_keys_ofList {entries : List (String × α)} {name : String} :
    name ∈ (ofList entries).keys ↔ name ∈ Entries.keys entries := by
  rw [ofList, mem_keys_insertMany]
  simp [empty, keys]

/-- Writes under other names leave a name alone. -/
theorem get?_insertMany_of_not_mem {map : OrderedMap α} {entries : List (String × α)}
    {name : String} (absent : name ∉ Entries.keys entries) :
    (map.insertMany entries).get? name = map.get? name := by
  induction entries generalizing map with
  | nil => rfl
  | cons entry rest ih =>
    rw [Entries.keys, List.map_cons, List.mem_cons, not_or] at absent
    have step : map.insertMany (entry :: rest) = (map.insert entry.1 entry.2).insertMany rest := rfl
    rw [step, ih absent.2, get?_insert, if_neg absent.1]

/-- Of entries with distinct names each one is written. -/
theorem get?_insertMany_of_get? {map : OrderedMap α} {entries : List (String × α)}
    {name : String} {value : α} (distinct : (Entries.keys entries).Nodup)
    (found : Entries.get? name entries = some value) :
    (map.insertMany entries).get? name = some value := by
  induction entries generalizing map with
  | nil => contradiction
  | cons entry rest ih =>
    obtain ⟨first, old⟩ := entry
    rw [Entries.keys, List.map_cons, List.nodup_cons] at distinct
    have step : map.insertMany ((first, old) :: rest) =
        (map.insert first old).insertMany rest := rfl
    rw [Entries.get?] at found
    rw [step]
    split at found
    · rename_i here
      subst here
      rw [get?_insertMany_of_not_mem distinct.1, get?_insert, if_pos rfl, found]
    · exact ih distinct.2 found

/-- A part of a list with distinct names gives a name its value when no later part has the name. -/
theorem get?_ofList_append {earlier own later : List (String × α)} {name : String} {value : α}
    (distinct : (Entries.keys own).Nodup) (found : Entries.get? name own = some value)
    (last : name ∉ Entries.keys later) :
    (ofList (earlier ++ own ++ later)).get? name = some value := by
  have parts : ofList (earlier ++ own ++ later) =
      ((empty.insertMany earlier).insertMany own).insertMany later := by
    simp only [ofList, insertMany, List.foldl_append]
  rw [parts, get?_insertMany_of_not_mem last, get?_insertMany_of_get? distinct found]

/-- Several writes of names that are new and distinct add their entries. -/
theorem entries_insertMany {map : OrderedMap α} {entries : List (String × α)}
    (distinct : (Entries.keys (map.entries ++ entries)).Nodup) :
    (map.insertMany entries).entries = map.entries ++ entries := by
  induction entries generalizing map with
  | nil => exact (List.append_nil _).symm
  | cons entry rest ih =>
    obtain ⟨name, value⟩ := entry
    have parts : Entries.keys (map.entries ++ (name, value) :: rest) =
        Entries.keys map.entries ++ name :: Entries.keys rest := by simp
    rw [parts] at distinct
    have absent : name ∉ Entries.keys map.entries := fun inside =>
      (List.nodup_append.mp distinct).2.2 name inside name List.mem_cons_self rfl
    have written : (map.insert name value).entries = map.entries ++ [(name, value)] :=
      Entries.insert_of_not_mem value absent
    have step : map.insertMany ((name, value) :: rest) = (map.insert name value).insertMany rest :=
      rfl
    rw [step, ih (by rw [written, List.append_assoc]; simpa using distinct), written,
      List.append_assoc]
    rfl

/-- Entries with distinct names are those of their map. -/
theorem entries_ofList {entries : List (String × α)} (distinct : (Entries.keys entries).Nodup) :
    (ofList entries).entries = entries :=
  entries_insertMany distinct

/-- The map of its own entries is as it was. -/
theorem ofList_entries (map : OrderedMap α) : ofList map.entries = map :=
  ext (entries_ofList map.distinct)

/-- After several writes there are the entries before and those that were written. -/
theorem mem_of_mem_insertMany {map : OrderedMap α} {entries : List (String × α)}
    {entry : String × α} (inside : entry ∈ (map.insertMany entries).entries) :
    entry ∈ map.entries ∨ entry ∈ entries := by
  induction entries generalizing map with
  | nil => exact .inl inside
  | cons first rest ih =>
    rcases ih (show entry ∈ ((map.insert first.1 first.2).insertMany rest).entries from inside) with
      before | later
    · have found := get?_eq_some.mpr before
      rw [get?_insert] at found
      split at found
      · rename_i same
        exact .inr (List.mem_cons.mpr (.inl (Prod.ext same (Option.some.inj found).symm)))
      · exact .inl (get?_eq_some.mp found)
    · exact .inr (List.mem_cons_of_mem _ later)

/-- The map of a list has entries of the list only. -/
theorem mem_of_mem_ofList {entries : List (String × α)} {entry : String × α}
    (inside : entry ∈ (ofList entries).entries) : entry ∈ entries :=
  (mem_of_mem_insertMany inside).resolve_left (by simp [empty])

/-- Of several writes of a name the last one counts. -/
theorem get?_insertMany (map : OrderedMap α) (entries : List (String × α)) (name : String) :
    (map.insertMany entries).get? name =
      (Entries.get? name entries.reverse).or (map.get? name) := by
  induction entries generalizing map with
  | nil => rfl
  | cons entry rest ih =>
    have step : map.insertMany (entry :: rest) = (map.insert entry.1 entry.2).insertMany rest := rfl
    rw [step, ih, get?_insert, List.reverse_cons, Entries.get?_append, Option.or_assoc]
    congr 1
    rw [Entries.get?, Entries.get?]
    by_cases same : name = entry.1
    · rw [if_pos same, if_pos same.symm, Option.some_or]
    · rw [if_neg same, if_neg (Ne.symm same), Option.none_or]

/-- A lookup in the map of a list finds the last entry of the name. -/
theorem get?_ofList (entries : List (String × α)) (name : String) :
    (ofList entries).get? name = Entries.get? name entries.reverse := by
  rw [ofList, get?_insertMany]
  exact Option.or_none

/-- The order of the names after several writes depends on the written names only. -/
theorem keys_insertMany_congr {map other : OrderedMap α} {entries others : List (String × α)}
    (before : map.keys = other.keys) (written : Entries.keys entries = Entries.keys others) :
    (map.insertMany entries).keys = (other.insertMany others).keys := by
  rw [keys_insertMany, keys_insertMany, before, written]

/-- The names of a map that another one is written over come first, and then the new ones. -/
theorem keys_overwrite (map new : OrderedMap α) :
    (map.overwrite new).keys = map.keys ++ new.keys.filter (· ∉ map.keys) := by
  have written : (map.overwrite new).keys = (map.keys ++ new.keys).eraseDups :=
    keys_insertMany map new.entries
  have added : new.keys.removeAll map.keys = new.keys.filter (· ∉ map.keys) :=
    List.filter_congr fun name _ => by simp
  have apart : (new.keys.filter (· ∉ map.keys)).Nodup := new.distinct.sublist List.filter_sublist
  rw [written, List.eraseDups_append, added, eraseDups_keys, Entries.eraseDups_of_nodup apart]

/-- Of a map that is written over another one every value is found, and beside it those of the
other one. -/
theorem get?_overwrite (map new : OrderedMap α) (name : String) :
    (map.overwrite new).get? name = (new.get? name).or (map.get? name) := by
  cases found : new.get? name with
  | some value => exact get?_insertMany_of_get? new.distinct found
  | none => exact get?_insertMany_of_not_mem (get?_eq_none.mp found)

end OrderedMap

end Raml
