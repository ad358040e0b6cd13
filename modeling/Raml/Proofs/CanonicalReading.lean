import Raml.Proofs.RecordReading

/-!
# Reading canonical nodes

Decoding changes nothing in a canonical node, so the values that are read of it hold parts of it as
they stand, and canonical nodes are written for them.
-/
namespace Raml

namespace Node

/-- Entries are canonical when each key and each value is. -/
theorem allCanonicalIn_iff {entries : List (Node × Node)} :
    allCanonicalIn entries = true ↔
      ∀ entry ∈ entries, isCanonical entry.1 = true ∧ isCanonical entry.2 = true := by
  induction entries with
  | nil => simp [allCanonicalIn]
  | cons entry rest ih =>
    rw [allCanonicalIn, Bool.and_eq_true, Bool.and_eq_true, ih, List.forall_mem_cons]

/-- The values of a canonical mapping are canonical. -/
theorem values_of_isCanonical {entries : List (Node × Node)}
    (canonical : isCanonical (mapping entries) = true) :
    ∀ entry ∈ entries, isCanonical entry.2 = true := by
  rw [isCanonical, Bool.and_eq_true, allCanonicalIn_iff] at canonical
  exact fun entry inside => (canonical.2 entry inside).2

/-- Under the tags of a canonical node is a canonical node. -/
theorem isCanonical_untagged {node : Node} (canonical : isCanonical node = true) :
    isCanonical node.untagged = true := by
  fun_induction untagged node with
  | case1 tag value ih =>
    rw [isCanonical, Bool.and_eq_true] at canonical
    exact ih canonical.2
  | case2 node _ => exact canonical

/-- A canonical node is read as itself. -/
theorem eq_of_readNode {node read : Node} (canonical : isCanonical node = true)
    (success : readNode node = .ok read) : read = node := by
  rw [readNode_of_isCanonical canonical] at success
  exact (Except.ok.inj success).symm

/-- Entries with canonical values are read as those values. -/
theorem values_of_readEntries {entries : List (Node × Node)} {found : List (String × Node)}
    (canonical : ∀ entry ∈ entries, isCanonical entry.2 = true)
    (success : readEntries entries = .ok found) :
    ∀ entry ∈ found, isCanonical entry.2 = true := by
  induction entries generalizing found with
  | nil =>
    cases success
    simp
  | cons first rest ih =>
    rw [List.forall_mem_cons] at canonical
    obtain ⟨name, value, others, -, own, later, rfl⟩ := readEntries_cons_eq_ok.mp success
    obtain rfl := eq_of_readNode canonical.1 own
    rw [List.forall_mem_cons]
    exact ⟨canonical.1, ih canonical.2 later⟩

/-- The mapping of facets with canonical values is canonical. -/
theorem isCanonical_facets {facets : Facets}
    (canonical : ∀ entry ∈ facets.entries, isCanonical entry.2 = true) :
    isCanonical (mapping facets.toMapping) = true :=
  (isCanonical_mapping_keyed facets.distinct).mpr canonical

end Node

namespace Facets

/-- The values of named entries are the values of the entries. -/
theorem values_of_named {entries : List (Node × Node)} {found : List (String × Node)}
    (success : named entries = .ok found) :
    found.map Prod.snd = entries.map Prod.snd := by
  induction entries generalizing found with
  | nil =>
    cases success
    rfl
  | cons first rest ih =>
    obtain ⟨key, node⟩ := first
    rw [named] at success
    split at success
    · contradiction
    · obtain ⟨others, later, rfl⟩ := map_eq_ok.mp success
      exact congrArg (node :: ·) (ih later)

/-- The facets of a canonical mapping have canonical values. -/
theorem values_of_ofMapping {entries : List (Node × Node)} {facets : Facets}
    (canonical : (Node.mapping entries).isCanonical = true)
    (success : ofMapping entries = .ok facets) :
    ∀ entry ∈ facets.entries, entry.2.isCanonical = true := by
  unfold ofMapping at success
  split at success
  · rename_i found read
    cases success
    intro entry inside
    have value : entry.2 ∈ found.map Prod.snd :=
      List.mem_map_of_mem (OrderedMap.mem_of_mem_ofList inside)
    rw [values_of_named read] at value
    obtain ⟨given, there, same⟩ := List.mem_map.mp value
    exact same ▸ Node.values_of_isCanonical canonical given there
  · contradiction

end Facets

/-- What a property is read as of a canonical node is written as a canonical node. -/
theorem PropertyValue.isCanonical_toNode {node : Node} {value : PropertyValue}
    (canonical : node.isCanonical = true) (read : ofNode node = .ok value) :
    value.toNode.isCanonical = true := by
  cases node with
  | mapping entries =>
    obtain ⟨facets, made, rfl⟩ := map_eq_ok.mp read
    exact Node.isCanonical_facets (Facets.values_of_ofMapping canonical made)
  | _ =>
    cases read
    exact canonical

namespace Properties

/-- What properties are read as of canonical nodes is written as canonical nodes. -/
theorem nodes_of_read {given : List (Node × Node)} {entries : List (String × PropertyValue)}
    (canonical : ∀ entry ∈ given, entry.2.isCanonical = true) (success : read given = .ok entries) :
    ∀ entry ∈ entries, entry.2.toNode.isCanonical = true := by
  induction given generalizing entries with
  | nil =>
    cases success
    simp
  | cons first rest ih =>
    rw [List.forall_mem_cons] at canonical
    obtain ⟨name, value, others, -, made, later, rfl⟩ := read_cons_eq_ok.mp success
    rw [List.forall_mem_cons]
    exact ⟨PropertyValue.isCanonical_toNode canonical.1 made, ih canonical.2 later⟩

/-- The properties of a canonical mapping are written as a canonical mapping. -/
theorem isCanonical_of_ofMapping {given : List (Node × Node)} {properties : Properties}
    (canonical : (Node.mapping given).isCanonical = true)
    (success : ofMapping given = .ok properties) :
    (Node.mapping properties.toMapping).isCanonical = true := by
  have distinct : (Entries.keys (nodes properties.entries)).Nodup := by
    rw [keys_nodes]
    exact properties.distinct
  rw [toMapping_eq, Node.isCanonical_mapping_keyed distinct, nodes, List.forall_mem_map]
  obtain ⟨entries, made, rfl⟩ := map_eq_ok.mp success
  intro entry inside
  exact nodes_of_read (Node.values_of_isCanonical canonical) made entry
    (OrderedMap.mem_of_mem_ofList inside)

end Properties

namespace Node

/-- What facets are read as of a canonical node is written as a canonical node. -/
theorem isCanonical_of_readFacets {node : Node} {facets : Facets}
    (canonical : node.isCanonical = true) (success : readFacets node = .ok facets) :
    (mapping facets.toMapping).isCanonical = true := by
  have under := isCanonical_untagged canonical
  unfold readFacets at success
  split at success
  · cases success
    rfl
  · rename_i entries plain
    rw [plain] at under
    obtain ⟨found, read, rfl⟩ := map_eq_ok.mp success
    have values := values_of_readEntries (values_of_isCanonical under) read
    exact isCanonical_facets fun entry inside =>
      values entry (OrderedMap.mem_of_mem_ofList inside)
  · contradiction

/-- The same of facets with scalars as keys. -/
theorem isCanonical_of_readFacetMap {node : Node} {facets : Facets}
    (canonical : node.isCanonical = true) (success : readFacetMap node = .ok facets) :
    (mapping facets.toMapping).isCanonical = true := by
  obtain ⟨whole, own, made⟩ := bind_eq_ok.mp success
  obtain rfl := eq_of_readNode canonical own
  split at made
  · cases made
    rfl
  · split at made
    · rename_i read
      cases made
      exact isCanonical_facets (Facets.values_of_ofMapping canonical read)
    · contradiction
  · contradiction

/-- The same of properties. -/
theorem isCanonical_of_readProperties {node : Node} {properties : Properties}
    (canonical : node.isCanonical = true) (success : readProperties node = .ok properties) :
    (mapping properties.toMapping).isCanonical = true := by
  obtain ⟨whole, own, made⟩ := bind_eq_ok.mp success
  obtain rfl := eq_of_readNode canonical own
  split at made
  · cases made
    rfl
  · split at made
    · rename_i read
      cases made
      exact Properties.isCanonical_of_ofMapping canonical read
    · contradiction
  · contradiction

end Node

/-- No node is written for a value but a canonical one. -/
def Shape.WritesCanonical (shape : Shape) (value : shape.Value) : Prop :=
  ∀ node, shape.write value = some node → node.isCanonical = true

/-- A value that is read of a canonical node is written as a canonical node. -/
theorem Shape.writesCanonical_of_read {shape : Shape} {node : Node} {value : shape.Value}
    (canonical : node.isCanonical = true) (read : shape.read node = .ok value) :
    shape.WritesCanonical value := by
  intro written given
  cases shape with
  | node =>
    replace given : value = some written := given
    subst given
    have whole : node.readNode = .ok written := (Node.readUnlessNull_eq_some.mp read).2
    exact Node.eq_of_readNode canonical whole ▸ canonical
  | facets =>
    cases value with
    | none => cases given
    | some facets =>
      cases given
      exact Node.isCanonical_of_readFacets canonical (Node.readUnlessNull_eq_some.mp read).2
  | text | string | count | number | flag =>
    cases value with
    | none => cases given
    | some scalar =>
      cases given
      rfl
  | strings =>
    cases value with
    | none => cases given
    | some texts =>
      cases given
      exact allCanonical_strings texts
  | properties =>
    obtain ⟨-, same⟩ := Option.ite_none_left_eq_some.mp given
    cases same
    exact Node.isCanonical_of_readProperties canonical read
  | facetMap =>
    obtain ⟨-, same⟩ := Option.ite_none_left_eq_some.mp given
    cases same
    exact Node.isCanonical_of_readFacetMap canonical read
  | stringList =>
    obtain ⟨-, same⟩ := Option.ite_none_left_eq_some.mp given
    cases same
    exact allCanonical_strings value

/-- Nothing is written for a value that is not given. -/
theorem Shape.writesCanonical_absent (shape : Shape) : shape.WritesCanonical shape.absent := by
  intro written given
  rw [Shape.write_absent] at given
  contradiction

/-- What is written for a record that is read of a canonical mapping is canonical. -/
theorem Record.writesCanonical_of_read {Field : Type} [DecidableEq Field]
    {table : FieldTable Field} {check : Node → Except FieldError Unit}
    {given : List (Node × Node)} {fields : Record table} {others : Facets}
    (canonical : (Node.mapping given).isCanonical = true)
    (success : read table check given = .ok (fields, others)) :
    (∀ field, (table.shape field).WritesCanonical (fields field)) ∧
      ∀ entry ∈ others.entries, entry.2.isCanonical = true := by
  have values := Node.values_of_isCanonical canonical
  have absent : ∀ field, (table.shape field).WritesCanonical (table.shape field).absent :=
    fun field => (table.shape field).writesCanonical_absent
  exact all_of_read absent
    (fun entry inside _ _ read => Shape.writesCanonical_of_read (values entry inside) read)
    (fun entry inside _ _ _ => values entry inside) success

end Raml
