import Raml.Proofs.Declaration
import Raml.Proofs.RecordCoding

/-!
# Coding of declarations

A declaration that was read of a node is written as a mapping and read again. It comes back exactly
when every node that is written for it is canonical. So no field and no annotation is lost on the
way. Only a tag that starts with a further exclamation mark does not come back: each coding takes
one of its marks away.
-/
namespace Raml.Declaration

open Node (keyed)

variable {name : String} {node : Node} {declaration : Declaration}

section Reading

/-- Where an expression is given, the older field for it is not adopted. -/
theorem adoptSchema_of_expression (given : declaration.expression ≠ none) :
    declaration.adoptSchema = declaration := by
  unfold adoptSchema
  split
  · rfl
  · contradiction

/-- Where none is given, it is adopted. -/
theorem adoptSchema_of_none (missing : declaration.expression = none) :
    declaration.adoptSchema = declaration.withExpression declaration.schema := by
  unfold adoptSchema
  rw [missing]

/-- Where neither is given, adopting the older field changes nothing. -/
theorem adoptSchema_of_schema_none (missing : declaration.expression = none)
    (older : declaration.schema = none) : declaration.adoptSchema = declaration :=
  calc declaration.adoptSchema
    _ = declaration.withExpression declaration.schema := adoptSchema_of_none missing
    _ = declaration.withExpression declaration.expression := by rw [older, missing]
    _ = declaration := withExpression_expression declaration

/-- Adopting the older field for the expression a second time changes nothing. -/
theorem adoptSchema_adoptSchema (declaration : Declaration) :
    declaration.adoptSchema.adoptSchema = declaration.adoptSchema := by
  by_cases missing : declaration.expression = none
  · by_cases older : declaration.schema = none
    · rw [adoptSchema_of_schema_none missing older, adoptSchema_of_schema_none missing older]
    · rw [adoptSchema_of_none missing]
      exact adoptSchema_of_expression older
  · rw [adoptSchema_of_expression missing, adoptSchema_of_expression missing]

/-- What is read has adopted the older field for the expression. -/
theorem adoptSchema_of_ofNode (read : ofNode name node = .ok declaration) :
    declaration.adoptSchema = declaration := by
  unfold ofNode at read
  split at read
  case h_3 entries =>
    unfold ofMapping at read
    split at read
    · cases read
      exact adoptSchema_adoptSchema _
    · contradiction
  case h_4 =>
    cases read
    exact adoptSchema_of_schema_none rfl rfl
  case h_5 => contradiction
  all_goals
    cases read
    rfl

variable {value : (field : Field) → (table.shape field).Value → Prop}
  {other : String × Node → Prop}

/-- Something holds of a declaration that is read if it holds of what is not given, of a node that
stands for its expression, and of what is read of a mapping. -/
theorem all_of_ofNode (absent : ∀ field, value field (table.shape field).absent)
    (short : node ≠ .null → value .type (some node))
    (long : ∀ entries fields others, node = .mapping entries →
      Record.read table checkAnnotation entries = .ok (fields, others) →
      (∀ field, value field (fields field)) ∧ ∀ entry ∈ others.entries, other entry)
    (adopts : ∀ expression, value .schema expression → value .type expression)
    (read : ofNode name node = .ok declaration) :
    (∀ field, value field (declaration.fields field)) ∧
      ∀ entry ∈ declaration.annotations.entries, other entry := by
  have expression (given : node ≠ .null) :
      ∀ field, value field ((ofParts name (some node) .empty).fields field) :=
    Record.forall_set (Record.forall_set absent (short given)) (absent .properties)
  have none : ∀ entry ∈ (.empty : Facets).entries, other entry := by simp [OrderedMap.empty]
  unfold ofNode at read
  split at read
  case h_3 entries =>
    unfold ofMapping at read
    split at read
    · rename_i fields others made
      cases read
      obtain ⟨values, kept⟩ := long entries fields others rfl made
      unfold adoptSchema
      split
      · exact ⟨values, kept⟩
      · exact ⟨Record.forall_set values (adopts _ (values .schema)), kept⟩
    · contradiction
  case h_4 =>
    cases read
    exact ⟨absent, none⟩
  case h_5 => contradiction
  all_goals
    cases read
    exact ⟨expression (by simp), none⟩

/-- The values of what is read are readable, and an annotation has no key of a field and no tag. -/
theorem sound_of_ofNode (read : ofNode name node = .ok declaration) :
    (∀ field, (table.shape field).Readable (declaration.fields field)) ∧
      ∀ entry ∈ declaration.annotations.entries,
        table.find? entry.1 = none ∧ checkAnnotation entry.2 = .ok () := by
  have absent : ∀ field, (table.shape field).Readable (table.shape field).absent :=
    fun field => (table.shape field).readable_absent
  have short (given : node ≠ .null) : (table.shape .type).Readable (some node) :=
    fun same => given (Option.some.inj same)
  exact all_of_ofNode absent short (fun _ _ _ _ made => Record.sound_of_read made)
    (fun _ older => older) read

/-- What is read of a canonical node is written with canonical nodes. -/
theorem writesCanonical_of_ofNode (canonical : node.isCanonical = true)
    (read : ofNode name node = .ok declaration) :
    (∀ field, (table.shape field).WritesCanonical (declaration.fields field)) ∧
      ∀ entry ∈ declaration.annotations.entries, entry.2.isCanonical = true := by
  have absent : ∀ field, (table.shape field).WritesCanonical (table.shape field).absent :=
    fun field => (table.shape field).writesCanonical_absent
  have short (given : node ≠ .null) : (table.shape .type).WritesCanonical (some node) := by
    intro written same
    exact Option.some.inj same ▸ canonical
  refine all_of_ofNode absent short ?_ (fun _ older => older) read
  intro entries fields others same made
  exact Record.writesCanonical_of_read (same ▸ canonical) made

end Reading

/-- The nodes that are written are those of the fields and of the annotations. -/
theorem forall_toEntries_iff :
    (∀ entry ∈ declaration.toEntries, entry.2.isCanonical = true) ↔
      (∀ field, (table.shape field).WritesCanonical (declaration.fields field)) ∧
        ∀ entry ∈ declaration.annotations.entries, entry.2.isCanonical = true := by
  rw [toEntries, List.forall_mem_append]
  refine and_congr_left fun _ => ?_
  constructor
  · intro canonical field written given
    exact canonical (table.key field, written) ((Record.key_mem_write find?_key).mpr given)
  · intro canonical entry inside
    obtain ⟨field, -, -, given⟩ := Record.mem_write.mp inside
    exact canonical field entry.2 given

/-- A declaration is encoded as a mapping of its fields and annotations. -/
theorem toNode_eq (declaration : Declaration) :
    declaration.toNode =
      .mapping (keyed (Record.coded declaration.fields declaration.annotations)) := by
  rw [toNode, keyed, Record.coded, List.map_map]
  rfl

/-- A declaration comes back when its record does. -/
theorem ofNode_toNode_of_read (read : ofNode name node = .ok declaration)
    (back : Record.read table checkAnnotation
        (keyed (Record.coded declaration.fields declaration.annotations)) =
      .ok (declaration.fields, declaration.annotations)) :
    ofNode name declaration.toNode = .ok declaration := by
  obtain rfl := name_of_ofNode read
  rw [toNode_eq, ofNode, ofMapping, back]
  exact congrArg Except.ok (adoptSchema_of_ofNode read)

/-- A declaration that comes back has an expression if one is read, before the older field for it is
adopted. -/
theorem expression_of_coded {fields : Record table} {others : Facets}
    (read : ofNode name node = .ok declaration)
    (back : Record.read table checkAnnotation
        (keyed (Record.coded declaration.fields declaration.annotations)) = .ok (fields, others))
    (missing : fields .type = none) : declaration.expression = none := by
  obtain ⟨readable, kept⟩ := sound_of_ofNode read
  have free : ∀ entry ∈ declaration.annotations.entries, table.find? entry.1 = none :=
    fun entry inside => (kept entry inside).1
  have given := ((Record.read_keyed_iff find?_key
    (Record.nodup_coded find?_key free nodup_all)).mp back).1
  cases own : declaration.expression with
  | none => rfl
  | some written =>
    have inside : (table.key .type, written.encoded) ∈
        Record.coded declaration.fields declaration.annotations :=
      (Record.key_mem_coded find?_key free).mpr ⟨written, own, rfl⟩
    have nothing := given .type written.encoded inside
    rw [missing] at nothing
    have null : written = .null :=
      Node.eq_null_of_encoded (Node.eq_null_of_readUnlessNull nothing)
    exact absurd (null ▸ own) (readable .type)

/-- When a declaration comes back its record does. -/
theorem read_of_ofNode_toNode (read : ofNode name node = .ok declaration)
    (back : ofNode name declaration.toNode = .ok declaration) :
    Record.read table checkAnnotation
        (keyed (Record.coded declaration.fields declaration.annotations)) =
      .ok (declaration.fields, declaration.annotations) := by
  rw [toNode_eq, ofNode, ofMapping] at back
  split at back
  · rename_i fields others made
    have same : adoptSchema ⟨name, fields, others⟩ = declaration := Except.ok.inj back
    have whole : (⟨name, fields, others⟩ : Declaration) = declaration := by
      by_cases missing : (⟨name, fields, others⟩ : Declaration).expression = none
      · have nothing : declaration.expression = none := expression_of_coded read made missing
        have older : (⟨name, fields, others⟩ : Declaration).schema = none := by
          rw [← nothing, ← same, adoptSchema_of_none missing, expression_withExpression]
        rw [← same, adoptSchema_of_schema_none missing older]
      · rw [← same, adoptSchema_of_expression missing]
    rw [made, ← whole]
  · contradiction

/-- A declaration that was read of a node comes back from the node that it is written as exactly
when every node in that is canonical. Then it has the same expression, the same value in every
field, and the same properties and annotations in the same order. It comes back whenever the node of
which it was read is canonical. -/
theorem ofNode_toNode_iff (name : String) (node : Node) (declaration : Declaration)
    (read : ofNode name node = .ok declaration) :
    (ofNode name declaration.toNode = .ok declaration ↔
        ∀ entry ∈ declaration.toEntries, entry.2.isCanonical = true) ∧
      (node.isCanonical = true → ofNode name declaration.toNode = .ok declaration) := by
  obtain ⟨readable, kept⟩ := sound_of_ofNode read
  have record := Record.read_coded_iff find?_key nodup_all readable kept
  have whole : ofNode name declaration.toNode = .ok declaration ↔
      Record.read table checkAnnotation
          (keyed (Record.coded declaration.fields declaration.annotations)) =
        .ok (declaration.fields, declaration.annotations) :=
    ⟨read_of_ofNode_toNode read, ofNode_toNode_of_read read⟩
  rw [forall_toEntries_iff, whole, record]
  exact ⟨Iff.rfl, fun canonical => writesCanonical_of_ofNode canonical read⟩

/-- A declaration by the older field, with a default under a tag, properties of each form, further
fields, and an annotation. -/
def sampleNode : Node :=
  .mapping [
    (.string "(note)", .sequence [.string "kept", .null]),
    (.string "minimum", .number (.int 3)),
    (.string "schema", .string "A | B"),
    (.string "default", .tagged "choice" (.mapping [(.string "A", .bool true)])),
    (.string "description", .number (.int 7)),
    (.string "properties", .mapping [
      (.string "b?", .mapping [(.string "type", .string "string"), (.bool true, .null)]),
      (.string "a", .string "A"),
      (.string "c", .sequence [.string "A", .string "B"])])]

/-- The declaration takes its expression from the older field, and it comes back. -/
theorem ofNode_toNode_iff_sample :
    ∃ declaration, ofNode "N" sampleNode = .ok declaration ∧
      declaration.expression = some (.string "A | B") ∧
      declaration.properties.keys = ["b?", "a", "c"] ∧
      ofNode "N" declaration.toNode = .ok declaration := by
  have parts : ((ofNode "N" sampleNode).map fun declaration =>
      (declaration.expression, declaration.properties.keys)).toOption =
        some (some (.string "A | B"), ["b?", "a", "c"]) := by decide +kernel
  cases read : ofNode "N" sampleNode with
  | error cause =>
    rw [read] at parts
    contradiction
  | ok declaration =>
    rw [read] at parts
    obtain ⟨expression, names⟩ := Prod.mk.inj (Option.some.inj parts)
    have canonical : sampleNode.isCanonical = true := by decide +kernel
    exact ⟨declaration, rfl, expression, names,
      (ofNode_toNode_iff "N" sampleNode declaration read).2 canonical⟩

/-- A tag with two further exclamation marks loses one of them when a declaration is read, and the
other one when the declaration is written. The declaration that is read again has another
expression. -/
theorem expression_changed_by_coding :
    ∃ declaration again,
      ofNode "N" (.mapping [(.string "type", .tagged "!!x" (.string "A"))]) = .ok declaration ∧
      ofNode "N" declaration.toNode = .ok again ∧
      declaration.expression = some (.tagged "!x" (.string "A")) ∧
      again.expression = some (.tagged "x" (.string "A")) ∧ again ≠ declaration := by
  have first : ((ofNode "N" (.mapping [(.string "type", .tagged "!!x" (.string "A"))])).map
      fun declaration => (declaration.expression, declaration.toNode)).toOption =
        some (some (.tagged "!x" (.string "A")),
          .mapping [(.string "type", .tagged "x" (.string "A"))]) := by decide +kernel
  have second : ((ofNode "N" (.mapping [(.string "type", .tagged "x" (.string "A"))])).map
      expression).toOption = some (some (.tagged "x" (.string "A"))) := by decide +kernel
  cases read : ofNode "N" (.mapping [(.string "type", .tagged "!!x" (.string "A"))]) with
  | error cause =>
    rw [read] at first
    contradiction
  | ok declaration =>
    rw [read] at first
    obtain ⟨own, written⟩ := Prod.mk.inj (Option.some.inj first)
    cases back : ofNode "N" (.mapping [(.string "type", .tagged "x" (.string "A"))]) with
    | error cause =>
      rw [back] at second
      contradiction
    | ok again =>
      rw [back] at second
      have other : again.expression = some (.tagged "x" (.string "A")) := Option.some.inj second
      have apart : again ≠ declaration := by
        rintro rfl
        have same := other.symm.trans own
        contradiction
      exact ⟨declaration, again, rfl, written ▸ back, own, other, apart⟩

end Raml.Declaration
