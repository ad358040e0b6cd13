import Raml.Proofs.ShapeCoding
import Raml.Record

/-!
# Reading records

A record is read entry by entry, and the order of the entries does not matter to the fields: each
field has the value that is read of its own entry, and the entries that are no field are kept in
their order. What was read can be read again from what is written for it.
-/
namespace Raml.Record

open Node (keyed)

variable {Field : Type} {table : FieldTable Field} {check : Node → Except FieldError Unit}

/-- A found field has the key. -/
theorem key_of_find? {key : String} {field : Field} (found : table.find? key = some field) :
    table.key field = key := by
  simpa using List.find?_some found

/-- What holds of every value of a record that is being read, and of every other entry. -/
structure Reading.All (value : (field : Field) → (table.shape field).Value → Prop)
    (other : String × Node → Prop) (reading : Reading table) : Prop where
  /-- It holds of the values of the fields. -/
  fields : ∀ field, value field (reading.fields field)
  /-- It holds of the entries that are no field. -/
  others : ∀ entry ∈ reading.others.entries, other entry

variable [DecidableEq Field]

/-- What is read of an entry whose key is a string. -/
theorem Reading.entry_eq_ok {reading next : Reading table} {name : String} {node : Node} :
    reading.entry check (.string name) node = .ok next ↔
      (∃ field value, table.find? name = some field ∧ field ∉ reading.given ∧
        (table.shape field).read node = .ok value ∧
        next = ⟨reading.fields.set field value, field :: reading.given, reading.others⟩) ∨
      (table.find? name = none ∧ check node = .ok () ∧
        next = { reading with others := reading.others.insert name node }) := by
  unfold Reading.entry
  simp only [Node.untagged]
  cases found : table.find? name with
  | none =>
    cases check node with
    | error cause => simp [Except.map]
    | ok passed => simp [Except.map, eq_comm]
  | some field =>
    by_cases known : field ∈ reading.given
    · simp [known]
    · cases read : (table.shape field).read node with
      | error cause => simp [known, read, Except.map]
      | ok value => simp [known, read, Except.map, eq_comm]

section All

variable {value : (field : Field) → (table.shape field).Value → Prop}
  {other : String × Node → Prop}

/-- A value of which it holds may be written to a field. -/
theorem forall_set {record : Record table} (before : ∀ field, value field (record field))
    {field : Field} {new : (table.shape field).Value} (own : value field new) :
    ∀ place, value place (record.set field new place) := by
  intro place
  by_cases same : place = field
  · subst same
    rw [set_same]
    exact own
  · rw [set_of_ne _ _ same]
    exact before place

/-- It holds after an entry if it holds of what is read of the entry. -/
theorem Reading.All.entry {reading next : Reading table} {key node : Node}
    (all : reading.All value other)
    (reads : ∀ field made, (table.shape field).read node = .ok made → value field made)
    (keeps : ∀ name, table.find? name = none → check node = .ok () → other (name, node))
    (step : reading.entry check key node = .ok next) : next.All value other := by
  unfold Reading.entry at step
  split at step
  · rename_i name _
    have named : reading.entry check (.string name) node = .ok next := step
    rcases entry_eq_ok.mp named with ⟨field, made, -, -, read, rfl⟩ | ⟨free, passed, rfl⟩
    · exact ⟨forall_set all.fields (reads field made read), all.others⟩
    · refine ⟨all.fields, fun entry inside => ?_⟩
      have found := OrderedMap.get?_eq_some.mpr inside
      rw [OrderedMap.get?_insert] at found
      split at found
      · rename_i same
        obtain ⟨place, kept⟩ := entry
        obtain rfl : place = name := same
        obtain rfl : node = kept := Option.some.inj found
        exact keeps place free passed
      · exact all.others entry (OrderedMap.get?_eq_some.mp found)
  · contradiction

/-- It holds after entries if it holds of what is read of each. -/
theorem Reading.All.entries {reading result : Reading table} {given : List (Node × Node)}
    (all : reading.All value other)
    (reads : ∀ entry ∈ given, ∀ field made,
      (table.shape field).read entry.2 = .ok made → value field made)
    (keeps : ∀ entry ∈ given, ∀ name,
      table.find? name = none → check entry.2 = .ok () → other (name, entry.2))
    (success : reading.entries check given = .ok result) : result.All value other := by
  induction given generalizing reading with
  | nil => exact Except.ok.inj success ▸ all
  | cons entry rest ih =>
    obtain ⟨key, node⟩ := entry
    rw [List.forall_mem_cons] at reads keeps
    rw [Reading.entries] at success
    split at success
    · rename_i next step
      exact ih (all.entry reads.1 keeps.1 step) reads.2 keeps.2 success
    · contradiction

/-- It holds of a record that is read if it holds of the fields that are not given and of what is
read of each entry. -/
theorem all_of_read {given : List (Node × Node)} {fields : Record table} {others : Facets}
    (absent : ∀ field, value field (table.shape field).absent)
    (reads : ∀ entry ∈ given, ∀ field made,
      (table.shape field).read entry.2 = .ok made → value field made)
    (keeps : ∀ entry ∈ given, ∀ name,
      table.find? name = none → check entry.2 = .ok () → other (name, entry.2))
    (success : read table check given = .ok (fields, others)) :
    (∀ field, value field (fields field)) ∧ ∀ entry ∈ others.entries, other entry := by
  obtain ⟨reading, made, same⟩ := map_eq_ok.mp success
  obtain ⟨rfl, rfl⟩ := Prod.mk.inj same
  have start : (Reading.start : Reading table).All value other :=
    ⟨absent, by simp [Reading.start, OrderedMap.empty]⟩
  have all := start.entries reads keeps made
  exact ⟨all.fields, all.others⟩

end All

/-- The values of a record that is read are readable, and the other entries have no key of a field
and have passed the check. -/
theorem sound_of_read {given : List (Node × Node)} {fields : Record table} {others : Facets}
    (success : read table check given = .ok (fields, others)) :
    (∀ field, (table.shape field).Readable (fields field)) ∧
      ∀ entry ∈ others.entries, table.find? entry.1 = none ∧ check entry.2 = .ok () :=
  all_of_read (fun field => (table.shape field).readable_absent)
    (fun _ _ _ _ read => Shape.readable_of_read read) (fun _ _ _ free passed => ⟨free, passed⟩)
    success

section Keyed

variable {named : List (String × Node)}

/-- What reading named nodes with distinct names adds to a record. -/
structure Reading.Adds (named : List (String × Node)) (before after : Reading table) : Prop where
  /-- A field that is given has the value that is read of its node. -/
  given : ∀ field node, (table.key field, node) ∈ named →
    (table.shape field).read node = .ok (after.fields field)
  /-- Any other field has the value that it had. -/
  kept : ∀ field, table.key field ∉ Entries.keys named → after.fields field = before.fields field
  /-- Other nodes are kept in their order. -/
  others : after.others =
    before.others.insertMany (named.filter fun entry => (table.find? entry.1).isNone)

/-- A node of a field is added to what the rest adds, if no other node has its name. -/
theorem Reading.Adds.field (finds : ∀ field, table.find? (table.key field) = some field)
    {before after : Reading table} {name : String} {node : Node} {own : Field}
    {value : (table.shape own).Value} (fresh : name ∉ Entries.keys named)
    (found : table.find? name = some own) (read : (table.shape own).read node = .ok value)
    (later : Adds named ⟨before.fields.set own value, own :: before.given, before.others⟩ after) :
    Adds ((name, node) :: named) before after := by
  obtain rfl : table.key own = name := key_of_find? found
  constructor
  · intro field given inside
    rcases List.mem_cons.mp inside with first | behind
    · obtain ⟨same, rfl⟩ := Prod.mk.inj first
      obtain rfl : field = own := Option.some.inj ((finds field).symm.trans (same ▸ found))
      have last : after.fields field = value :=
        (later.kept field fresh).trans (set_same before.fields field value)
      rw [last]
      exact read
    · exact later.given field given behind
  · intro field absent
    obtain ⟨first, behind⟩ := not_or.mp (mt List.mem_cons.mpr absent)
    have apart : field ≠ own := fun same => first (same ▸ rfl)
    exact (later.kept field behind).trans (set_of_ne before.fields value apart)
  · rw [later.others, List.filter_cons, if_neg (by simp [found])]

omit [DecidableEq Field] in
/-- Another node is added to what the rest adds. -/
theorem Reading.Adds.other (finds : ∀ field, table.find? (table.key field) = some field)
    {before after : Reading table} {name : String} {node : Node} (free : table.find? name = none)
    (later : Adds named { before with others := before.others.insert name node } after) :
    Adds ((name, node) :: named) before after := by
  constructor
  · intro field given inside
    rcases List.mem_cons.mp inside with first | behind
    · obtain ⟨same, -⟩ := Prod.mk.inj first
      rw [← same, finds field] at free
      contradiction
    · exact later.given field given behind
  · intro field absent
    exact later.kept field (not_or.mp (mt List.mem_cons.mpr absent)).2
  · rw [later.others, List.filter_cons, if_pos (by simp [free])]
    rfl

/-- Named nodes that are read are added. -/
theorem Reading.adds_of_entries (finds : ∀ field, table.find? (table.key field) = some field)
    {before after : Reading table} (distinct : (Entries.keys named).Nodup)
    (success : before.entries check (keyed named) = .ok after) : Adds named before after := by
  induction named generalizing before with
  | nil =>
    cases success
    exact ⟨by simp, fun _ _ => rfl, rfl⟩
  | cons entry rest ih =>
    obtain ⟨name, node⟩ := entry
    obtain ⟨fresh, others⟩ := List.nodup_cons.mp distinct
    rw [Node.keyed_cons, Reading.entries] at success
    split at success
    · rename_i next step
      have later := ih others success
      rcases entry_eq_ok.mp step with ⟨field, value, found, -, read, rfl⟩ | ⟨free, -, rfl⟩
      · exact later.field finds fresh found read
      · exact later.other finds free
    · contradiction

/-- Named nodes with distinct names are read when each can be read by itself. -/
theorem Reading.exists_entries {before : Reading table} (distinct : (Entries.keys named).Nodup)
    (fields : ∀ field node, (table.key field, node) ∈ named →
      field ∉ before.given ∧ ∃ value, (table.shape field).read node = .ok value)
    (others : ∀ entry ∈ named, table.find? entry.1 = none → check entry.2 = .ok ()) :
    ∃ after, before.entries check (keyed named) = .ok after := by
  induction named generalizing before with
  | nil => exact ⟨before, rfl⟩
  | cons entry rest ih =>
    obtain ⟨name, node⟩ := entry
    have names : Entries.keys ((name, node) :: rest) = name :: Entries.keys rest := rfl
    rw [names, List.nodup_cons] at distinct
    rw [List.forall_mem_cons] at others
    rw [Node.keyed_cons, Reading.entries]
    cases found : table.find? name with
    | none =>
      have step : before.entry check (.string name) node =
          .ok { before with others := before.others.insert name node } :=
        entry_eq_ok.mpr (.inr ⟨found, others.1 found, rfl⟩)
      simp only [step]
      refine ih distinct.2 (fun field node inside => ?_) others.2
      exact fields field node (List.mem_cons_of_mem _ inside)
    | some field =>
      have own := key_of_find? found
      obtain ⟨fresh, value, read⟩ := fields field node (own ▸ List.mem_cons_self)
      have step : before.entry check (.string name) node =
          .ok ⟨before.fields.set field value, field :: before.given, before.others⟩ :=
        entry_eq_ok.mpr (.inl ⟨field, value, found, fresh, read, rfl⟩)
      simp only [step]
      refine ih distinct.2 (fun other node inside => ?_) others.2
      obtain ⟨free, readable⟩ := fields other node (List.mem_cons_of_mem _ inside)
      have apart : other ≠ field := by
        rintro rfl
        exact distinct.1 (own ▸ List.mem_map_of_mem (f := Prod.fst) inside)
      refine ⟨?_, readable⟩
      rw [List.mem_cons, not_or]
      exact ⟨apart, free⟩

/-- A record is read of named nodes with distinct names exactly when each of its fields is read of
its own node, if there is one, and all else has passed the check and is kept in its order. -/
theorem read_keyed_iff (finds : ∀ field, table.find? (table.key field) = some field)
    (distinct : (Entries.keys named).Nodup) {fields : Record table} {others : Facets} :
    read table check (keyed named) = .ok (fields, others) ↔
      (∀ field node, (table.key field, node) ∈ named →
        (table.shape field).read node = .ok (fields field)) ∧
      (∀ field, table.key field ∉ Entries.keys named →
        fields field = (table.shape field).absent) ∧
      (∀ entry ∈ named, table.find? entry.1 = none → check entry.2 = .ok ()) ∧
      others = .ofList (named.filter fun entry => (table.find? entry.1).isNone) := by
  constructor
  · intro success
    have sound := sound_of_read success
    obtain ⟨reading, made, same⟩ := map_eq_ok.mp success
    obtain ⟨rfl, rfl⟩ := Prod.mk.inj same
    have adds := Reading.adds_of_entries finds distinct made
    refine ⟨adds.given, adds.kept, fun entry inside free => ?_, adds.others⟩
    have others : reading.others.entries =
        named.filter fun entry => (table.find? entry.1).isNone := by
      rw [adds.others]
      exact OrderedMap.entries_ofList (distinct.sublist (List.filter_sublist.map Prod.fst))
    refine (sound.2 entry ?_).2
    rw [others, List.mem_filter]
    exact ⟨inside, by simp [free]⟩
  · rintro ⟨given, kept, passed, rfl⟩
    have success : ∃ after,
        (Reading.start : Reading table).entries check (keyed named) = .ok after :=
      Reading.exists_entries distinct
        (fun field node inside => ⟨by simp [Reading.start], _, given field node inside⟩) passed
    obtain ⟨after, made⟩ := success
    have adds := Reading.adds_of_entries finds distinct made
    have same : after.fields = fields := by
      funext field
      by_cases inside : table.key field ∈ Entries.keys named
      · obtain ⟨⟨key, node⟩, there, rfl⟩ := List.mem_map.mp inside
        exact Except.ok.inj ((adds.given field node there).symm.trans (given field node there))
      · exact (adds.kept field inside).trans (kept field inside).symm
    exact map_eq_ok.mpr ⟨after, made, by rw [same, adds.others]; rfl⟩

end Keyed

end Raml.Record
