import Raml.Proofs.Facets
import Raml.Proofs.NodeCoding
import Raml.Proofs.Success
import Raml.Record.Shape

/-!
# Coding of the values of fields

The node that is written for the value of a field is encoded, and when the field is read again the
nodes in it are decoded. A value that was read before comes back exactly when the node that is
written for it is canonical.
-/
namespace Raml

namespace Node

/-- Named nodes as entries of a mapping, with strings as keys. -/
def keyed (entries : List (String × Node)) : List (Node × Node) :=
  entries.map fun entry => (.string entry.1, entry.2)

variable {entries : List (String × Node)}

/-- The first named node is the first entry. -/
@[simp]
theorem keyed_cons (name : String) (node : Node) (rest : List (String × Node)) :
    keyed ((name, node) :: rest) = (string name, node) :: keyed rest := rfl

/-- Strings are alike exactly when they are equal, so distinct names are distinct keys. -/
theorem distinctKeys_keyed :
    distinctKeys (keyed entries) = true ↔ (Entries.keys entries).Nodup := by
  induction entries with
  | nil => simp [keyed, distinctKeys]
  | cons entry rest ih =>
    obtain ⟨name, value⟩ := entry
    have names : Entries.keys ((name, value) :: rest) = name :: Entries.keys rest := rfl
    have known : (keyed rest).any (fun other => alike (string name) other.1) = true ↔
        name ∈ Entries.keys rest := by
      simp only [keyed, List.any_map, List.any_eq_true, Function.comp_def, alike, decide_eq_true_eq,
        Entries.keys, List.mem_map]
      exact exists_congr fun other => and_congr_right fun _ => eq_comm
    rw [names, List.nodup_cons, ← ih, ← known, keyed, List.map_cons, distinctKeys,
      Bool.and_eq_true, Bool.not_eq_true', Bool.not_eq_true]
    rfl

/-- The values of named nodes are encoded. -/
theorem encodedEntries_keyed (entries : List (String × Node)) :
    encodedEntries (keyed entries) =
      keyed (entries.map fun entry => (entry.1, entry.2.encoded)) := by
  simp [encodedEntries_eq_map, keyed, encoded]

/-- Changed values have the names that there were. -/
theorem keys_map_values {α β : Type} (change : α → β) (entries : List (String × α)) :
    Entries.keys (entries.map fun entry => (entry.1, change entry.2)) = Entries.keys entries := by
  simp [Entries.keys, Function.comp_def]

/-- Of a mapping with distinct names the values are encoded. -/
theorem encoded_mapping_keyed (distinct : (Entries.keys entries).Nodup) :
    encoded (mapping (keyed entries)) =
      mapping (keyed (entries.map fun entry => (entry.1, entry.2.encoded))) := by
  have apart : distinctKeys (encodedEntries (keyed entries)) = true := by
    rw [encodedEntries_keyed, distinctKeys_keyed, keys_map_values]
    exact distinct
  rw [encoded, merged_of_distinctKeys apart, encodedEntries_keyed]

/-- A mapping with distinct names is canonical when its values are. -/
theorem isCanonical_mapping_keyed (distinct : (Entries.keys entries).Nodup) :
    isCanonical (mapping (keyed entries)) = true ↔
      ∀ entry ∈ entries, isCanonical entry.2 = true := by
  rw [isCanonical, distinctKeys_keyed.mpr distinct, Bool.true_and]
  clear distinct
  induction entries with
  | nil => simp [keyed, allCanonicalIn]
  | cons entry rest ih =>
    rw [keyed] at ih
    rw [keyed, List.map_cons, allCanonicalIn, Bool.and_eq_true, Bool.and_eq_true, ih,
      List.forall_mem_cons]
    simp [isCanonical]

/-- Named nodes are decoded to named nodes. -/
theorem exists_keyed_of_decodedEntries? {found : List (Node × Node)}
    (decoded : decodedEntries? (keyed entries) = some found) :
    ∃ values, found = keyed values ∧ Entries.keys values = Entries.keys entries := by
  induction entries generalizing found with
  | nil =>
    cases decoded
    exact ⟨[], rfl, rfl⟩
  | cons entry rest ih =>
    obtain ⟨name, value⟩ := entry
    simp only [keyed, List.map_cons, decodedEntries?, Option.bind_eq_bind, Option.bind_eq_some_iff,
      Option.pure_def, Option.some.injEq, decoded?] at decoded
    obtain ⟨key, rfl, other, -, others, later, rfl⟩ := decoded
    obtain ⟨values, rfl, same⟩ := ih later
    exact ⟨(name, other) :: values, rfl, congrArg (name :: ·) same⟩

/-- What an encoded mapping with distinct names is decoded to is a mapping with those names. -/
theorem exists_keyed_of_decoded? {node : Node} (distinct : (Entries.keys entries).Nodup)
    (decoded : decoded? (encoded (mapping (keyed entries))) = some node) :
    ∃ values, node = mapping (keyed values) ∧ Entries.keys values = Entries.keys entries := by
  rw [encoded_mapping_keyed distinct, decoded?, Option.map_eq_some_iff] at decoded
  obtain ⟨found, filtered, rfl⟩ := decoded
  obtain ⟨values, rfl, same⟩ :=
    exists_keyed_of_decodedEntries? (Option.filter_eq_some_iff.mp filtered).1
  exact ⟨values, rfl, by rw [same, keys_map_values]⟩

/-- A canonical node is read as it is. -/
theorem readNode_of_isCanonical {node : Node} (canonical : isCanonical node = true) :
    readNode node = .ok node := by
  rw [readNode, decoded?_of_isCanonical canonical]

/-- What a node is read as is what it is decoded to. -/
theorem readNode_eq_ok {node read : Node} :
    readNode node = .ok read ↔ decoded? node = some read := by
  unfold readNode
  cases decoded? node <;> simp

end Node

namespace Facets

/-- The facets of named nodes with distinct names are those nodes. -/
theorem ofMapping_keyed {entries : List (String × Node)}
    (distinct : (Entries.keys entries).Nodup) :
    ofMapping (Node.keyed entries) = .ok ⟨entries, distinct⟩ := by
  have named : Facets.named (Node.keyed entries) = .ok entries := named_toMapping entries
  simp only [ofMapping, named, Except.ok.injEq]
  exact OrderedMap.ext (OrderedMap.entries_ofList distinct)

end Facets

namespace PropertyValue

/-- A value that comes back from the node that is written for it. -/
def Readable (value : PropertyValue) : Prop := ofNode value.toNode = .ok value

/-- What is read of a node is readable. -/
theorem readable_of_ofNode {node : Node} {value : PropertyValue} (read : ofNode node = .ok value) :
    value.Readable := by
  cases node with
  | mapping entries =>
    obtain ⟨facets, -, rfl⟩ := map_eq_ok.mp read
    have back : Facets.ofMapping facets.toMapping = .ok facets :=
      Facets.ofMapping_keyed facets.distinct
    exact map_eq_ok.mpr ⟨facets, back, rfl⟩
  | _ =>
    cases read
    rfl

/-- A readable value that comes back from its coded node has been written as the node that it was
decoded from. -/
theorem eq_toNode_of_decoded? {value : PropertyValue} {node : Node} (readable : value.Readable)
    (decoded : value.toNode.encoded.decoded? = some node) (read : ofNode node = .ok value) :
    node = value.toNode := by
  cases value with
  | reference type =>
    cases decoded
    rfl
  | inline facets =>
    obtain ⟨values, rfl, same⟩ := Node.exists_keyed_of_decoded? facets.distinct decoded
    have distinct : (Entries.keys values).Nodup := same ▸ facets.distinct
    rw [ofNode, Facets.ofMapping_keyed distinct] at read
    have back : (⟨values, distinct⟩ : Facets) = facets :=
      PropertyValue.inline.inj (Except.ok.inj read)
    rw [← back]
    rfl
  | raw written =>
    have own : ofNode written = .ok (.raw written) := readable
    cases written with
    | string text => cases own
    | mapping entries =>
      obtain ⟨facets, -, other⟩ := map_eq_ok.mp own
      contradiction
    | sequence items =>
      simp only [toNode, Node.encoded, Node.decoded?, Option.map_eq_some_iff] at decoded
      obtain ⟨found, -, rfl⟩ := decoded
      exact PropertyValue.raw.inj (Except.ok.inj read)
    | tagged tag inner =>
      simp only [toNode, Node.encoded, Node.decoded?, Option.map_eq_some_iff] at decoded
      obtain ⟨found, -, rfl⟩ := decoded
      exact PropertyValue.raw.inj (Except.ok.inj read)
    | null | bool _ | number _ =>
      cases decoded
      rfl

end PropertyValue

namespace Properties

variable {entries : List (String × PropertyValue)}

/-- The nodes of properties under their names. -/
def nodes (entries : List (String × PropertyValue)) : List (String × Node) :=
  entries.map fun entry => (entry.1, entry.2.toNode)

/-- The nodes of properties have the names of the properties. -/
theorem keys_nodes (entries : List (String × PropertyValue)) :
    Entries.keys (nodes entries) = Entries.keys entries :=
  Node.keys_map_values PropertyValue.toNode entries

/-- The mapping of properties has their nodes. -/
theorem toMapping_eq (properties : Properties) :
    properties.toMapping = Node.keyed (nodes properties.entries) := by
  simp [toMapping, Node.keyed, nodes]

/-- Properties are read of an entry and of the rest of a mapping. -/
theorem read_cons_eq_ok {key node : Node} {rest : List (Node × Node)} :
    read ((key, node) :: rest) = .ok entries ↔
      ∃ name value others, key.scalarText? = some name ∧ PropertyValue.ofNode node = .ok value ∧
        read rest = .ok others ∧ (name, value) :: others = entries := by
  rw [read]
  cases key.scalarText? with
  | none => simp
  | some name => cases PropertyValue.ofNode node <;> simp [map_eq_ok]

/-- What is read is readable. -/
theorem readable_of_read {found : List (Node × Node)} (success : read found = .ok entries) :
    ∀ entry ∈ entries, entry.2.Readable := by
  induction found generalizing entries with
  | nil =>
    cases success
    simp
  | cons first rest ih =>
    obtain ⟨name, value, others, -, made, later, rfl⟩ := read_cons_eq_ok.mp success
    rw [List.forall_mem_cons]
    exact ⟨PropertyValue.readable_of_ofNode made, ih later⟩

/-- The names of the nodes are those of the properties that are read. -/
theorem keys_of_read_keyed {named : List (String × Node)}
    (success : read (Node.keyed named) = .ok entries) :
    Entries.keys entries = Entries.keys named := by
  induction named generalizing entries with
  | nil =>
    cases success
    rfl
  | cons first rest ih =>
    obtain ⟨name, node⟩ := first
    obtain ⟨text, value, others, own, -, later, rfl⟩ := read_cons_eq_ok.mp success
    obtain rfl : name = text := Option.some.inj own
    exact congrArg (name :: ·) (ih later)

/-- The nodes of readable properties are read as the properties. -/
theorem read_nodes (readable : ∀ entry ∈ entries, entry.2.Readable) :
    read (Node.keyed (nodes entries)) = .ok entries := by
  induction entries with
  | nil => rfl
  | cons entry rest ih =>
    rw [List.forall_mem_cons] at readable
    exact read_cons_eq_ok.mpr ⟨entry.1, entry.2, rest, rfl, readable.1, ih readable.2, rfl⟩

/-- Readable properties that come back from their coded nodes have been written as what those are
decoded to. -/
theorem eq_nodes_of_read {found : List (Node × Node)}
    (readable : ∀ entry ∈ entries, entry.2.Readable)
    (decoded : Node.decodedEntries?
      (Node.keyed ((nodes entries).map fun entry => (entry.1, entry.2.encoded))) = some found)
    (success : read found = .ok entries) : found = Node.keyed (nodes entries) := by
  induction entries generalizing found with
  | nil =>
    cases decoded
    rfl
  | cons entry rest ih =>
    obtain ⟨name, value⟩ := entry
    rw [List.forall_mem_cons] at readable
    simp only [nodes, Node.keyed, List.map_cons, Node.decodedEntries?, Option.bind_eq_bind,
      Option.bind_eq_some_iff, Option.pure_def, Option.some.injEq, Node.decoded?] at decoded
    obtain ⟨key, rfl, node, own, others, behind, rfl⟩ := decoded
    obtain ⟨text, back, values, -, made, later, same⟩ := read_cons_eq_ok.mp success
    cases same
    have first := PropertyValue.eq_toNode_of_decoded? readable.1 own made
    rw [first, ih readable.2 behind later]
    rfl

/-- Properties are read of named nodes in the order of the names. -/
theorem read_of_ofMapping_keyed {named : List (String × Node)} {properties : Properties}
    (distinct : (Entries.keys named).Nodup)
    (success : ofMapping (Node.keyed named) = .ok properties) :
    read (Node.keyed named) = .ok properties.entries := by
  obtain ⟨found, made, rfl⟩ := map_eq_ok.mp success
  have apart : (Entries.keys found).Nodup := keys_of_read_keyed made ▸ distinct
  rw [made, OrderedMap.entries_ofList apart]

end Properties

namespace Node

variable {entries : List (String × Node)}

/-- Entries are read one after another. -/
theorem readEntries_cons_eq_ok {key node : Node} {rest : List (Node × Node)} :
    readEntries ((key, node) :: rest) = .ok entries ↔
      ∃ name value others, readString key = .ok name ∧ readNode node = .ok value ∧
        readEntries rest = .ok others ∧ (name, value) :: others = entries := by
  simp only [readEntries, bind_eq_ok, pure, Except.pure, Except.ok.injEq]
  constructor
  · rintro ⟨name, first, value, second, others, third, same⟩
    exact ⟨name, value, others, first, second, third, same⟩
  · rintro ⟨name, value, others, first, second, third, same⟩
    exact ⟨name, first, value, second, others, third, same⟩

/-- The names of entries that are read are those that there were. -/
theorem keys_of_readEntries_keyed {named : List (String × Node)}
    (read : readEntries (keyed named) = .ok entries) :
    Entries.keys entries = Entries.keys named := by
  induction named generalizing entries with
  | nil =>
    cases read
    rfl
  | cons first rest ih =>
    obtain ⟨name, node⟩ := first
    obtain ⟨text, value, others, own, -, later, rfl⟩ := readEntries_cons_eq_ok.mp read
    obtain rfl : name = text := Except.ok.inj own
    exact congrArg (name :: ·) (ih later)

/-- Named nodes come back from their coded entries exactly when they are canonical. -/
theorem readEntries_encoded_iff :
    readEntries (keyed (entries.map fun entry => (entry.1, entry.2.encoded))) = .ok entries ↔
      ∀ entry ∈ entries, isCanonical entry.2 = true := by
  induction entries with
  | nil => simp [keyed, readEntries]
  | cons first rest ih =>
    obtain ⟨name, node⟩ := first
    rw [List.forall_mem_cons, ← ih, ← decoded?_encoded_iff, ← readNode_eq_ok, List.map_cons,
      keyed_cons, readEntries_cons_eq_ok]
    constructor
    · rintro ⟨text, value, others, -, own, later, same⟩
      cases same
      exact ⟨own, later⟩
    · rintro ⟨own, later⟩
      exact ⟨name, node, rest, rfl, own, later, rfl⟩

/-- A value is read of a node that is no null. -/
theorem readUnlessNull_eq_some {α : Type} {reader : Node → Except FieldError α} {node : Node}
    {value : α} :
    readUnlessNull reader node = .ok (some value) ↔ node ≠ null ∧ reader node = .ok value := by
  unfold readUnlessNull
  split
  · simp
  · rename_i given
    rw [and_iff_right given, map_eq_ok]
    simp

/-- Only of a null no value is read. -/
theorem eq_null_of_readUnlessNull {α : Type} {reader : Node → Except FieldError α} {node : Node}
    (success : readUnlessNull reader node = .ok none) : node = null := by
  unfold readUnlessNull at success
  split at success
  · rfl
  · obtain ⟨value, -, some⟩ := map_eq_ok.mp success
    contradiction

end Node

/-- Only a null is encoded as a null. -/
theorem Node.eq_null_of_encoded {node : Node} (coded : encoded node = null) : node = null := by
  cases node with
  | null => rfl
  | _ => simp [encoded] at coded

/-- Only a null is decoded to a null. -/
theorem Node.eq_null_of_decoded? {node : Node} (decoded : decoded? node = some null) :
    node = null := by
  cases node with
  | null => rfl
  | sequence _ | mapping _ | tagged _ _ => simp [decoded?] at decoded
  | _ => cases decoded

namespace Shape

/-- A value that comes back from the node that is written for it, if the node is canonical. -/
def Readable : (shape : Shape) → shape.Value → Prop
  | node, value => value ≠ some .null
  | properties, value => ∀ entry ∈ value.entries, entry.2.Readable
  | _, _ => True

/-- The value of a field that is not given is readable. -/
theorem readable_absent (shape : Shape) : shape.Readable shape.absent := by
  cases shape with
  | node =>
    show (none : Option Node) ≠ some .null
    simp
  | properties =>
    show ∀ entry ∈ (OrderedMap.empty : Properties).entries, entry.2.Readable
    simp [OrderedMap.empty]
  | _ => trivial

/-- What is read is readable. -/
theorem readable_of_read {shape : Shape} {node : Node} {value : shape.Value}
    (success : shape.read node = .ok value) : shape.Readable value := by
  cases shape with
  | node =>
    show value ≠ some .null
    rintro rfl
    obtain ⟨given, own⟩ := Node.readUnlessNull_eq_some.mp success
    exact given (Node.eq_null_of_decoded? (Node.readNode_eq_ok.mp own))
  | properties =>
    replace success : Node.readProperties node = .ok value := success
    obtain ⟨found, -, success⟩ := bind_eq_ok.mp success
    split at success
    · cases success
      exact readable_absent .properties
    · split at success
      · rename_i properties made
        cases success
        obtain ⟨given, read, rfl⟩ := map_eq_ok.mp made
        intro entry inside
        exact Properties.readable_of_read read entry (OrderedMap.mem_of_mem_ofList inside)
      · contradiction
    · contradiction
  | _ => trivial

/-- Only for a value that is not given nothing is written. -/
theorem eq_absent_of_write {shape : Shape} {value : shape.Value}
    (nothing : shape.write value = none) : value = shape.absent := by
  cases shape with
  | node => exact nothing
  | facets | text | string | count | number | flag | strings =>
    cases value with
    | none => rfl
    | some given => cases nothing
  | properties | facetMap =>
    have none : value.entries = [] := by
      by_contra some
      simp [write, OrderedMap.isEmpty, some] at nothing
    exact OrderedMap.ext none
  | stringList =>
    by_contra some
    replace some : value ≠ [] := some
    simp [write, some] at nothing

/-- The strings of a list of strings are read. -/
theorem readStrings_map (texts : List String) :
    Node.readStrings (texts.map .string) = .ok texts := by
  induction texts with
  | nil => rfl
  | cons text rest ih =>
    simp [Node.readStrings, Node.readString, Node.untagged, ih, bind, Except.bind, pure,
      Except.pure]

/-- Strings are canonical. -/
theorem allCanonical_strings (texts : List String) :
    Node.allCanonical (texts.map .string) = true := by
  induction texts with
  | nil => rfl
  | cons text rest ih => simp [Node.allCanonical, Node.isCanonical, ih]

/-- A node that is no null comes back exactly when it is canonical. -/
theorem readNode_encoded_iff {node : Node} (given : node ≠ .null) :
    Node.readUnlessNull Node.readNode node.encoded = .ok (some node) ↔
      node.isCanonical = true := by
  have coded : node.encoded ≠ .null := fun same => given (Node.eq_null_of_encoded same)
  rw [Node.readUnlessNull_eq_some, Node.readNode_eq_ok, Node.decoded?_encoded_iff]
  exact and_iff_right coded

/-- Facets come back exactly when they are canonical. -/
theorem readFacets_encoded_iff (facets : Facets) :
    Node.readUnlessNull Node.readFacets (Node.mapping facets.toMapping).encoded =
        .ok (some facets) ↔ (Node.mapping facets.toMapping).isCanonical = true := by
  have mapping : facets.toMapping = Node.keyed facets.entries := rfl
  rw [mapping, Node.encoded_mapping_keyed facets.distinct,
    Node.isCanonical_mapping_keyed facets.distinct, ← Node.readEntries_encoded_iff]
  rw [Node.readUnlessNull_eq_some, and_iff_right (by simp)]
  refine Iff.trans map_eq_ok ?_
  constructor
  · rintro ⟨found, read, rfl⟩
    have names := Node.keys_of_readEntries_keyed read
    rw [Node.keys_map_values] at names
    have distinct : (Entries.keys found).Nodup := names ▸ OrderedMap.distinct _
    rw [OrderedMap.entries_ofList distinct] at read ⊢
    exact read
  · intro read
    exact ⟨facets.entries, read, OrderedMap.ofList_entries facets⟩

/-- Facets with scalars as keys come back exactly when they are canonical. -/
theorem readFacetMap_encoded_iff (facets : Facets) :
    Node.readFacetMap (Node.mapping facets.toMapping).encoded = .ok facets ↔
      (Node.mapping facets.toMapping).isCanonical = true := by
  have mapping : facets.toMapping = Node.keyed facets.entries := rfl
  rw [mapping]
  constructor
  · intro read
    obtain ⟨node, own, made⟩ := bind_eq_ok.mp read
    have decoded := Node.readNode_eq_ok.mp own
    obtain ⟨values, rfl, names⟩ := Node.exists_keyed_of_decoded? facets.distinct decoded
    have distinct : (Entries.keys values).Nodup := names ▸ facets.distinct
    simp only [Facets.ofMapping_keyed distinct, Except.ok.injEq] at made
    rw [← made] at decoded ⊢
    exact Node.decoded?_encoded_iff.mp decoded
  · intro canonical
    rw [Node.encoded_eq_iff.mpr canonical]
    unfold Node.readFacetMap
    simp only [Node.readNode_of_isCanonical canonical, bind, Except.bind,
      Facets.ofMapping_keyed facets.distinct]

/-- Properties that were read come back exactly when their nodes are canonical. -/
theorem readProperties_encoded_iff {properties : Properties}
    (readable : ∀ entry ∈ properties.entries, entry.2.Readable) :
    Node.readProperties (Node.mapping properties.toMapping).encoded = .ok properties ↔
      (Node.mapping properties.toMapping).isCanonical = true := by
  have distinct : (Entries.keys (Properties.nodes properties.entries)).Nodup := by
    rw [Properties.keys_nodes]
    exact properties.distinct
  rw [Properties.toMapping_eq]
  constructor
  · intro read
    obtain ⟨node, own, read⟩ := bind_eq_ok.mp read
    have decoded := Node.readNode_eq_ok.mp own
    obtain ⟨values, rfl, names⟩ := Node.exists_keyed_of_decoded? distinct decoded
    have apart : (Entries.keys values).Nodup := names ▸ distinct
    dsimp only at read
    split at read
    · rename_i given made
      obtain rfl : given = properties := Except.ok.inj read
      have back := Properties.read_of_ofMapping_keyed apart made
      have entries := decoded
      rw [Node.encoded_mapping_keyed distinct, Node.decoded?, Option.map_eq_some_iff] at entries
      obtain ⟨found, filtered, same⟩ := entries
      obtain rfl : found = Node.keyed values := Node.mapping.inj same
      have kept := Properties.eq_nodes_of_read readable
        (Option.filter_eq_some_iff.mp filtered).1 back
      rw [kept] at decoded
      exact Node.decoded?_encoded_iff.mp decoded
    · contradiction
  · intro canonical
    have made : Properties.ofMapping (Node.keyed (Properties.nodes properties.entries)) =
        .ok properties := by
      rw [Properties.ofMapping, Properties.read_nodes readable]
      simp only [Except.map, OrderedMap.ofList_entries]
    rw [Node.encoded_eq_iff.mpr canonical]
    unfold Node.readProperties
    simp only [Node.readNode_of_isCanonical canonical, bind, Except.bind, made]

/-- A list of strings comes back as it is. -/
theorem readStringList_encoded (texts : List String) :
    Node.readStringList (writeStrings texts).encoded = .ok texts := by
  have canonical : (writeStrings texts).isCanonical = true := allCanonical_strings texts
  rw [Node.encoded_eq_iff.mpr canonical]
  exact readStrings_map texts

/-- A readable value comes back from the node that is written for it exactly when that node is
canonical. -/
theorem read_encoded_iff {shape : Shape} {value : shape.Value} {node : Node}
    (readable : shape.Readable value) (written : shape.write value = some node) :
    shape.read node.encoded = .ok value ↔ node.isCanonical = true := by
  cases shape with
  | node =>
    replace written : value = some node := written
    subst written
    exact readNode_encoded_iff fun same => readable (congrArg some same)
  | facets =>
    cases value with
    | none => cases written
    | some facets =>
      cases written
      exact readFacets_encoded_iff facets
  | text | string | count | number | flag =>
    cases value with
    | none => cases written
    | some given =>
      cases written
      exact ⟨fun _ => rfl, fun _ => rfl⟩
  | strings =>
    cases value with
    | none => cases written
    | some texts =>
      cases written
      have read := congrArg (Except.map some) (readStringList_encoded texts)
      exact ⟨fun _ => allCanonical_strings texts, fun _ => read⟩
  | properties =>
    obtain ⟨-, same⟩ := Option.ite_none_left_eq_some.mp written
    cases same
    exact readProperties_encoded_iff readable
  | facetMap =>
    obtain ⟨-, same⟩ := Option.ite_none_left_eq_some.mp written
    cases same
    exact readFacetMap_encoded_iff value
  | stringList =>
    obtain ⟨-, same⟩ := Option.ite_none_left_eq_some.mp written
    cases same
    exact ⟨fun _ => allCanonical_strings value, fun _ => readStringList_encoded value⟩

end Shape

end Raml
