import Mathlib.Data.List.Nodup
import Raml.Proofs.CanonicalReading

/-!
# Coding of records

A record is written under the keys of its fields, followed by the entries that are no field, and the
nodes are encoded. Of these the same record is read exactly when every node that is written is
canonical.
-/
namespace Raml.Record

open Node (keyed)

variable {Field : Type} {table : FieldTable Field} {fields : Record table} {others : Facets}

/-- The nodes that a record and the other entries are encoded as, under their names. -/
def coded (fields : Record table) (others : Facets) : List (String × Node) :=
  (write fields ++ others.entries).map fun entry => (entry.1, entry.2.encoded)

/-- What is written for a record is written for one of its fields. -/
theorem mem_write {entry : String × Node} :
    entry ∈ write fields ↔
      ∃ field ∈ table.all, table.key field = entry.1 ∧
        (table.shape field).write (fields field) = some entry.2 := by
  unfold write
  rw [List.mem_filterMap]
  refine exists_congr fun field => and_congr_right fun _ => ?_
  rw [Option.map_eq_some_iff]
  constructor
  · rintro ⟨node, written, rfl⟩
    exact ⟨rfl, written⟩
  · rintro ⟨same, written⟩
    exact ⟨entry.2, written, Prod.ext same rfl⟩

section Laws

variable (finds : ∀ field, table.find? (table.key field) = some field)

include finds

/-- Two fields have two keys when every key finds its field. -/
theorem key_injective_of_finds {left right : Field} (same : table.key left = table.key right) :
    left = right := by
  have found := finds left
  rw [same, finds right] at found
  exact (Option.some.inj found).symm

/-- Under the key of a field stands what is written for it. -/
theorem key_mem_write {field : Field} {node : Node} :
    (table.key field, node) ∈ write fields ↔
      (table.shape field).write (fields field) = some node := by
  rw [mem_write]
  constructor
  · rintro ⟨other, -, same, written⟩
    obtain rfl := key_injective_of_finds finds same
    exact written
  · intro written
    exact ⟨field, List.mem_of_find?_eq_some (finds field), rfl, written⟩

/-- The key of a written entry finds a field. -/
theorem find?_isSome_of_mem_write {entry : String × Node} (inside : entry ∈ write fields) :
    (table.find? entry.1).isSome = true := by
  obtain ⟨field, -, same, -⟩ := mem_write.mp inside
  rw [← same, finds field]
  rfl

/-- No key is written twice. -/
theorem nodup_write (distinct : table.all.Nodup) : (Entries.keys (write fields)).Nodup := by
  unfold Entries.keys write
  rw [List.map_filterMap]
  refine List.Nodup.filterMap (fun left right key first second => ?_) distinct
  simp only [Option.mem_def, Option.map_map, Option.map_eq_some_iff, Function.comp_apply]
    at first second
  obtain ⟨-, -, rfl⟩ := first
  obtain ⟨-, -, same⟩ := second
  exact (key_injective_of_finds finds same).symm

variable (free : ∀ entry ∈ others.entries, table.find? entry.1 = none)

include free

/-- The names of what is encoded are distinct. -/
theorem nodup_coded (distinct : table.all.Nodup) : (Entries.keys (coded fields others)).Nodup := by
  rw [coded, Node.keys_map_values, Entries.keys, List.map_append, List.nodup_append]
  refine ⟨nodup_write finds distinct, others.distinct, ?_⟩
  rintro key first other second rfl
  obtain ⟨entry, written, rfl⟩ := List.mem_map.mp first
  obtain ⟨kept, inside, same⟩ := List.mem_map.mp second
  have found := find?_isSome_of_mem_write finds written
  rw [← same, free kept inside] at found
  contradiction

/-- Under the key of a field stands the encoded node that is written for it. -/
theorem key_mem_coded {field : Field} {node : Node} :
    (table.key field, node) ∈ coded fields others ↔
      ∃ written, (table.shape field).write (fields field) = some written ∧
        written.encoded = node := by
  rw [coded, List.mem_map]
  constructor
  · rintro ⟨entry, inside, same⟩
    obtain ⟨name, rfl⟩ := Prod.mk.inj same
    rcases List.mem_append.mp inside with written | kept
    · refine ⟨entry.2, (key_mem_write finds).mp ?_, rfl⟩
      rw [← name]
      exact written
    · have missing := free entry kept
      rw [name, finds field] at missing
      contradiction
  · rintro ⟨written, given, rfl⟩
    have inside : (table.key field, written) ∈ write fields := (key_mem_write finds).mpr given
    exact ⟨(table.key field, written), List.mem_append_left _ inside, rfl⟩

/-- A field whose key is not among the names is not given. -/
theorem eq_absent_of_not_mem_coded {field : Field}
    (missing : table.key field ∉ Entries.keys (coded fields others)) :
    fields field = (table.shape field).absent := by
  apply Shape.eq_absent_of_write
  cases written : (table.shape field).write (fields field) with
  | none => rfl
  | some node =>
    have inside : (table.key field, node.encoded) ∈ coded fields others :=
      (key_mem_coded finds free).mpr ⟨node, written, rfl⟩
    exact absurd (List.mem_map_of_mem inside) missing

/-- The names that are no key are those of the other entries. -/
theorem filter_coded :
    ((coded fields others).filter fun entry => (table.find? entry.1).isNone) =
      others.entries.map fun entry => (entry.1, entry.2.encoded) := by
  have none : (write fields).filter (fun entry => (table.find? entry.1).isNone) = [] := by
    rw [List.filter_eq_nil_iff]
    intro entry inside
    have found := find?_isSome_of_mem_write finds inside
    simp [Option.isNone_iff_eq_none, Option.isSome_iff_ne_none.mp found]
  have all : others.entries.filter (fun entry => (table.find? entry.1).isNone) =
      others.entries := by
    rw [List.filter_eq_self]
    intro entry inside
    rw [free entry inside]
    rfl
  rw [coded, List.filter_map]
  simp only [Function.comp_def, List.filter_append, none, all, List.nil_append]

end Laws

/-- Facets whose nodes are encoded are the same facets exactly when the nodes are canonical. -/
theorem eq_ofList_encoded_iff (others : Facets) :
    others = .ofList (others.entries.map fun entry => (entry.1, entry.2.encoded)) ↔
      ∀ entry ∈ others.entries, entry.2.isCanonical = true := by
  have names : (Entries.keys (others.entries.map fun entry =>
      (entry.1, entry.2.encoded))).Nodup := by
    rw [Node.keys_map_values]
    exact others.distinct
  have own (entry : String × Node) :
      entry = (entry.1, entry.2.encoded) ↔ entry.2.isCanonical = true := by
    rw [← Node.encoded_eq_iff]
    exact ⟨fun same => (congrArg Prod.snd same).symm, fun same => Prod.ext rfl same.symm⟩
  calc others = .ofList (others.entries.map fun entry => (entry.1, entry.2.encoded))
    _ ↔ others.entries.map id = others.entries.map fun entry => (entry.1, entry.2.encoded) := by
      rw [List.map_id]
      constructor
      · intro same
        exact (congrArg OrderedMap.entries same).trans (OrderedMap.entries_ofList names)
      · intro same
        rw [← same, OrderedMap.ofList_entries]
    _ ↔ ∀ entry ∈ others.entries, entry.2.isCanonical = true := by
      rw [List.map_inj_left]
      exact forall₂_congr fun entry _ => own entry

/-- A record is read of what it is encoded as exactly when the nodes that are written for its fields
and the other nodes are canonical. -/
theorem read_coded_iff [DecidableEq Field] {check : Node → Except FieldError Unit}
    (finds : ∀ field, table.find? (table.key field) = some field) (distinct : table.all.Nodup)
    (readable : ∀ field, (table.shape field).Readable (fields field))
    (kept : ∀ entry ∈ others.entries, table.find? entry.1 = none ∧ check entry.2 = .ok ()) :
    read table check (keyed (coded fields others)) = .ok (fields, others) ↔
      (∀ field, (table.shape field).WritesCanonical (fields field)) ∧
        ∀ entry ∈ others.entries, entry.2.isCanonical = true := by
  have free : ∀ entry ∈ others.entries, table.find? entry.1 = none :=
    fun entry inside => (kept entry inside).1
  rw [read_keyed_iff finds (nodup_coded finds free distinct), filter_coded finds free,
    eq_ofList_encoded_iff]
  constructor
  · rintro ⟨given, -, -, canonical⟩
    refine ⟨fun field written writes => ?_, canonical⟩
    have read := given field written.encoded
      ((key_mem_coded finds free).mpr ⟨written, writes, rfl⟩)
    exact (Shape.read_encoded_iff (readable field) writes).mp read
  · rintro ⟨written, canonical⟩
    refine ⟨?_, ?_, ?_, canonical⟩
    · intro field node inside
      obtain ⟨given, writes, rfl⟩ := (key_mem_coded finds free).mp inside
      exact (Shape.read_encoded_iff (readable field) writes).mpr (written field given writes)
    · intro field missing
      exact eq_absent_of_not_mem_coded finds free missing
    · intro entry inside missing
      have other : entry ∈ others.entries.map fun entry => (entry.1, entry.2.encoded) := by
        rw [← filter_coded finds free, List.mem_filter, missing]
        exact ⟨inside, rfl⟩
      obtain ⟨own, there, rfl⟩ := List.mem_map.mp other
      rw [Node.encoded_eq_iff.mpr (canonical own there)]
      exact (kept own there).2

end Raml.Record
