import Mathlib.Data.List.Induction
import Raml.Node.Coding

/-!
# Nodes that coding keeps

A node goes through decoding and encoding unchanged exactly when it is canonical: no tag in it
starts with a further exclamation mark, and no mapping in it has two keys that are alike. What the
coding takes away it does not put back, so a node that is encoded and decoded again is the same only
if neither changed it.
-/
namespace Raml.Node

mutual

/-- Whether no tag in a node loses a mark and no mapping in it has two keys that are alike. -/
def isCanonical : Node → Bool
  | sequence items => allCanonical items
  | mapping entries => distinctKeys entries && allCanonicalIn entries
  | tagged tag value => decide (unmarked tag = tag) && isCanonical value
  | _ => true

/-- Whether all nodes are canonical. -/
def allCanonical : List Node → Bool
  | [] => true
  | item :: rest => isCanonical item && allCanonical rest

/-- Whether all keys and values of entries are canonical. -/
def allCanonicalIn : List (Node × Node) → Bool
  | [] => true
  | (key, value) :: rest => isCanonical key && isCanonical value && allCanonicalIn rest

end

/-- A tag that loses a mark becomes shorter. -/
theorem unmarked_eq_or_length_lt (tag : String) :
    unmarked tag = tag ∨ (unmarked tag).toList.length < tag.toList.length := by
  unfold unmarked
  split
  · rename_i first rest chars
    right
    rw [chars, String.toList_ofList, List.length_cons]
    exact Nat.lt_succ_self _
  · exact .inl rfl

/-- A tag that loses marks twice and is as before has lost none. -/
theorem unmarked_eq_of_twice {tag : String} (back : unmarked (unmarked tag) = tag) :
    unmarked tag = tag := by
  rcases unmarked_eq_or_length_lt tag with same | shorter
  · exact same
  · have further : (unmarked (unmarked tag)).toList.length ≤ (unmarked tag).toList.length := by
      rcases unmarked_eq_or_length_lt (unmarked tag) with same | less
      · exact Nat.le_of_eq (congrArg (fun marked => marked.toList.length) same)
      · omega
    rw [back] at further
    omega

section Merged

/-- A value is written in the place of a key that is alike, or at the end when there is none. -/
theorem write_eq_or (key value : Node) (entries : List (Node × Node)) :
    (write key value entries).length = entries.length ∨
      (write key value entries = entries ++ [(key, value)] ∧
        ∀ entry ∈ entries, alike entry.1 key = false) := by
  induction entries with
  | nil => exact .inr ⟨rfl, by simp⟩
  | cons entry rest ih =>
    obtain ⟨name, old⟩ := entry
    rw [write]
    by_cases same : alike name key = true
    · rw [if_pos same]
      exact .inl rfl
    · rw [if_neg same]
      rcases ih with kept | ⟨added, apart⟩
      · exact .inl (by rw [List.length_cons, kept, List.length_cons])
      · refine .inr ⟨by rw [added, List.cons_append], ?_⟩
        rw [List.forall_mem_cons]
        exact ⟨by simpa using same, apart⟩

/-- A value whose key is alike to none is written at the end. -/
theorem write_of_apart {key : Node} (value : Node) {entries : List (Node × Node)}
    (apart : ∀ entry ∈ entries, alike entry.1 key = false) :
    write key value entries = entries ++ [(key, value)] := by
  induction entries with
  | nil => rfl
  | cons entry rest ih =>
    rw [List.forall_mem_cons] at apart
    rw [write, if_neg (by simp [apart.1]), ih apart.2, List.cons_append]

/-- Keys of a list are distinct when they are so in front and behind, and none in front is alike to
one behind. -/
theorem distinctKeys_append {entries others : List (Node × Node)} :
    distinctKeys (entries ++ others) = true ↔
      distinctKeys entries = true ∧ distinctKeys others = true ∧
        ∀ entry ∈ entries, ∀ other ∈ others, alike entry.1 other.1 = false := by
  induction entries with
  | nil => simp [distinctKeys]
  | cons entry rest ih =>
    simp only [List.cons_append, distinctKeys, Bool.and_eq_true, ih, Bool.not_eq_true',
      List.any_append, Bool.or_eq_false_iff, List.forall_mem_cons, List.any_eq_false,
      Bool.not_eq_true]
    constructor
    · rintro ⟨⟨inside, beyond⟩, front, back, apart⟩
      exact ⟨⟨inside, front⟩, back, beyond, apart⟩
    · rintro ⟨⟨inside, front⟩, back, beyond, apart⟩
      exact ⟨⟨inside, beyond⟩, front, back, apart⟩

/-- Entries are written over earlier ones. -/
theorem merged_append (entries others : List (Node × Node)) :
    merged (entries ++ others) =
      others.foldl (fun written entry => write entry.1 entry.2 written) (merged entries) :=
  List.foldl_append

/-- Merged entries are no more than there were. When they are as many, no two keys are alike and
nothing was changed. -/
theorem merged_length (entries : List (Node × Node)) :
    (merged entries).length < entries.length ∨
      (merged entries = entries ∧ distinctKeys entries = true) := by
  induction entries using List.reverseRecOn with
  | nil => exact .inr ⟨rfl, rfl⟩
  | append_singleton entries entry ih =>
    have last : merged (entries ++ [entry]) = write entry.1 entry.2 (merged entries) :=
      merged_append entries [entry]
    rw [last, List.length_append, List.length_singleton]
    rcases write_eq_or entry.1 entry.2 (merged entries) with kept | ⟨added, apart⟩
    · left
      have bound : (merged entries).length ≤ entries.length := by
        rcases ih with less | ⟨same, -⟩
        · omega
        · exact Nat.le_of_eq (congrArg List.length same)
      omega
    · rcases ih with less | ⟨same, distinct⟩
      · left
        rw [added, List.length_append, List.length_singleton]
        omega
      · right
        rw [same] at added apart
        refine ⟨by rw [same, added], distinctKeys_append.mpr ⟨distinct, rfl, ?_⟩⟩
        intro other inside only there
        rw [List.mem_singleton.mp there]
        exact apart other inside

/-- Entries of which no two keys are alike are merged to themselves. -/
theorem merged_of_distinctKeys {entries : List (Node × Node)}
    (distinct : distinctKeys entries = true) : merged entries = entries := by
  induction entries using List.reverseRecOn with
  | nil => rfl
  | append_singleton entries entry ih =>
    obtain ⟨front, -, apart⟩ := distinctKeys_append.mp distinct
    have last : merged (entries ++ [entry]) = write entry.1 entry.2 (merged entries) :=
      merged_append entries [entry]
    rw [last, ih front]
    exact write_of_apart entry.2 fun other inside => apart other inside entry (by simp)

end Merged

mutual

/-- A canonical node is decoded to itself. -/
theorem decoded?_of_isCanonical : ∀ {node : Node}, isCanonical node = true →
    decoded? node = some node
  | null, _ | bool _, _ | number _, _ | string _, _ => rfl
  | sequence items, canonical => by
    rw [decoded?, decodedItems?_of_allCanonical canonical]
    rfl
  | mapping entries, canonical => by
    rw [isCanonical, Bool.and_eq_true] at canonical
    rw [decoded?, decodedEntries?_of_allCanonicalIn canonical.2]
    simp [Option.filter, canonical.1]
  | tagged tag value, canonical => by
    rw [isCanonical, Bool.and_eq_true, decide_eq_true_eq] at canonical
    rw [decoded?, decoded?_of_isCanonical canonical.2, canonical.1]
    rfl

/-- Canonical items are decoded to themselves. -/
theorem decodedItems?_of_allCanonical : ∀ {items : List Node}, allCanonical items = true →
    decodedItems? items = some items
  | [], _ => rfl
  | item :: rest, canonical => by
    rw [allCanonical, Bool.and_eq_true] at canonical
    rw [decodedItems?, decoded?_of_isCanonical canonical.1,
      decodedItems?_of_allCanonical canonical.2]
    rfl

/-- Entries of canonical keys and values are decoded to themselves. -/
theorem decodedEntries?_of_allCanonicalIn : ∀ {entries : List (Node × Node)},
    allCanonicalIn entries = true → decodedEntries? entries = some entries
  | [], _ => rfl
  | (key, value) :: rest, canonical => by
    rw [allCanonicalIn, Bool.and_eq_true, Bool.and_eq_true] at canonical
    rw [decodedEntries?, decoded?_of_isCanonical canonical.1.1,
      decoded?_of_isCanonical canonical.1.2, decodedEntries?_of_allCanonicalIn canonical.2]
    rfl

end

mutual

/-- A canonical node is encoded as itself, and no other node is. -/
theorem encoded_eq_iff : ∀ {node : Node}, encoded node = node ↔ isCanonical node = true
  | null | bool _ | number _ | string _ => by simp [encoded, isCanonical]
  | sequence items => by rw [encoded, sequence.injEq, isCanonical, encodedItems_eq_iff]
  | mapping entries => by
    rw [encoded, mapping.injEq, isCanonical, Bool.and_eq_true]
    constructor
    · intro same
      have length : (merged (encodedEntries entries)).length = (encodedEntries entries).length := by
        rw [same, encodedEntries_eq_map, List.length_map]
      rcases merged_length (encodedEntries entries) with less | ⟨kept, distinct⟩
      · omega
      · rw [kept] at same
        exact ⟨same ▸ distinct, encodedEntries_eq_iff.mp same⟩
    · rintro ⟨distinct, canonical⟩
      rw [encodedEntries_eq_iff.mpr canonical, merged_of_distinctKeys distinct]
  | tagged tag value => by
    rw [encoded, tagged.injEq, isCanonical, Bool.and_eq_true, decide_eq_true_eq, encoded_eq_iff]

/-- Items are encoded as themselves exactly when each of them is canonical. -/
theorem encodedItems_eq_iff : ∀ {items : List Node},
    encodedItems items = items ↔ allCanonical items = true
  | [] => by simp [encodedItems, allCanonical]
  | item :: rest => by
    rw [encodedItems, List.cons.injEq, allCanonical, Bool.and_eq_true, encoded_eq_iff,
      encodedItems_eq_iff]

/-- Entries are encoded as themselves exactly when their keys and values are canonical. -/
theorem encodedEntries_eq_iff : ∀ {entries : List (Node × Node)},
    encodedEntries entries = entries ↔ allCanonicalIn entries = true
  | [] => by simp [encodedEntries, allCanonicalIn]
  | (key, value) :: rest => by
    rw [encodedEntries, List.cons.injEq, Prod.mk.injEq, allCanonicalIn, Bool.and_eq_true,
      Bool.and_eq_true, encoded_eq_iff, encoded_eq_iff, encodedEntries_eq_iff]

end

/-- Decoded entries are as many as there were. -/
theorem length_of_decodedEntries? {entries found : List (Node × Node)}
    (decoded : decodedEntries? entries = some found) : found.length = entries.length := by
  induction entries generalizing found with
  | nil => simp [decodedEntries?] at decoded; simp [← decoded]
  | cons entry rest ih =>
    obtain ⟨key, value⟩ := entry
    simp only [decodedEntries?, Option.bind_eq_bind, Option.bind_eq_some_iff, Option.pure_def,
      Option.some.injEq] at decoded
    obtain ⟨name, _, other, _, others, later, rfl⟩ := decoded
    rw [List.length_cons, ih later, List.length_cons]

mutual

/-- A node that is encoded and decoded again is the same only if it is encoded as itself. -/
theorem encoded_eq_of_decoded? : ∀ {node : Node}, decoded? (encoded node) = some node →
    encoded node = node
  | null, _ | bool _, _ | number _, _ | string _, _ => rfl
  | sequence items, back => by
    rw [encoded, decoded?, Option.map_eq_some_iff] at back
    obtain ⟨found, decoded, same⟩ := back
    rw [sequence.injEq] at same
    rw [encoded, encodedItems_eq_of_decoded? (same ▸ decoded)]
  | mapping entries, back => by
    rw [encoded, decoded?, Option.map_eq_some_iff] at back
    obtain ⟨found, decoded, same⟩ := back
    obtain rfl : entries = found := (mapping.inj same).symm
    replace decoded := (Option.filter_eq_some_iff.mp decoded).1
    have length := length_of_decodedEntries? decoded
    -- As many entries come back, so no two keys have become alike.
    rcases merged_length (encodedEntries entries) with less | ⟨kept, -⟩
    · rw [encodedEntries_eq_map, List.length_map, ← encodedEntries_eq_map] at less
      omega
    · rw [kept] at decoded
      rw [encoded, kept, encodedEntries_eq_of_decoded? decoded]
  | tagged tag value, back => by
    rw [encoded, decoded?, Option.map_eq_some_iff] at back
    obtain ⟨found, decoded, same⟩ := back
    obtain ⟨mark, rfl⟩ := tagged.inj same
    rw [encoded, encoded_eq_of_decoded? decoded, unmarked_eq_of_twice mark]

/-- Items that come back from their encoded form were encoded as themselves. -/
theorem encodedItems_eq_of_decoded? : ∀ {items : List Node},
    decodedItems? (encodedItems items) = some items → encodedItems items = items
  | [], _ => rfl
  | item :: rest, back => by
    simp only [encodedItems, decodedItems?, Option.bind_eq_bind, Option.bind_eq_some_iff,
      Option.pure_def, Option.some.injEq, List.cons.injEq] at back
    obtain ⟨first, decoded, others, later, rfl, rfl⟩ := back
    rw [encodedItems, encoded_eq_of_decoded? decoded, encodedItems_eq_of_decoded? later]

/-- Entries that come back from their encoded form, none of them merged, were encoded as
themselves. -/
theorem encodedEntries_eq_of_decoded? : ∀ {entries : List (Node × Node)},
    decodedEntries? (encodedEntries entries) = some entries → encodedEntries entries = entries
  | [], _ => rfl
  | (key, value) :: rest, back => by
    simp only [encodedEntries, decodedEntries?, Option.bind_eq_bind, Option.bind_eq_some_iff,
      Option.pure_def, Option.some.injEq, List.cons.injEq, Prod.mk.injEq] at back
    obtain ⟨name, first, other, second, others, later, ⟨rfl, rfl⟩, rfl⟩ := back
    rw [encodedEntries, encoded_eq_of_decoded? first, encoded_eq_of_decoded? second,
      encodedEntries_eq_of_decoded? later]

end

/-- A canonical node is the same after it was encoded and decoded again, and no other node is. -/
theorem decoded?_encoded_iff {node : Node} :
    decoded? (encoded node) = some node ↔ isCanonical node = true := by
  constructor
  · exact fun back => encoded_eq_iff.mp (encoded_eq_of_decoded? back)
  · intro canonical
    rw [encoded_eq_iff.mpr canonical, decoded?_of_isCanonical canonical]

end Raml.Node
