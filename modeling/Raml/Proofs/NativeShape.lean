import Mathlib.Data.List.DropRight
import Raml.Proofs.AllOfMerge
import Raml.Proofs.SchemaReading
import Raml.Proofs.Text

/-!
# Native shape of projected properties

Whichever way a property's schema is read, as a reference, by the model or as it is, the projection
gives facets that a declaration could have given itself: a type that is no list, no references, and
the requirement as the last facet. A schema that is a reference becomes the type that the last
segment of the reference names.
-/
namespace Raml.Schema

open JsonValue Text

/-! ## Nodes of values -/

/-- The entries of members are those of the single members. -/
theorem toEntries_eq_map (members : List (String × JsonValue)) :
    toEntries members = members.map fun member => (Node.string member.1, toNode member.2) := by
  induction members with
  | nil => rfl
  | cons member rest ih =>
    obtain ⟨name, value⟩ := member
    rw [toEntries, ih, List.map_cons]

/-- The node of a value has the text of the value. -/
theorem string?_toNode (value : JsonValue) : (toNode value).string? = value.string? := by
  cases value <;> simp [toNode, Node.string?, Node.untagged, JsonValue.string?]

/-- The node of a value has under a key the node of what the value has there. -/
theorem get?_toNode (key : String) (value : JsonValue) :
    (toNode value).get? key = (value.get? key).map toNode := by
  cases value with
  | object members =>
    simp only [toNode, Node.get?, Node.untagged, JsonValue.get?, toEntries_eq_map]
    induction members with
    | nil => rfl
    | cons member rest ih =>
      obtain ⟨name, held⟩ := member
      by_cases same : name = key
      · simp [Entries.get?, same]
      · simpa [Entries.get?, same] using ih
  | _ => rfl

/-! ## Facets of native shape -/

section Facets

variable {members : List (String × JsonValue)} {name keyword : String} {value schema : JsonValue}
variable {facet : String × Node} {facets : Facets}

/-- A facet that a declaration could give beside its requirement, by its name and its node. -/
structure NativeFacet (name : String) (node : Node) : Prop where
  /-- A type is no list. -/
  type : name = "type" → ∀ items, node ≠ .sequence items
  /-- A reference is no text. -/
  reference : name = "$ref" → node.string? = none
  /-- Items hold no reference that is a text. -/
  items : name = "items" → (node.get? "$ref").bind Node.string? = none
  /-- The facet is not the requirement. -/
  other : name ≠ "required"

/-- Any node other than a list may stand as the type. -/
theorem nativeFacet_type {node : Node} (unlisted : ∀ items, node ≠ .sequence items) :
    NativeFacet "type" node :=
  ⟨fun _ => unlisted, fun same => absurd same (by decide), fun same => absurd same (by decide),
    by decide⟩

/-- Any node other than a text may stand as a reference. -/
theorem nativeFacet_reference {node : Node} (textless : node.string? = none) :
    NativeFacet "$ref" node :=
  ⟨fun same => absurd same (by decide), fun _ => textless, fun same => absurd same (by decide),
    by decide⟩

/-- Any node that holds no reference may stand as the items. -/
theorem nativeFacet_items {node : Node}
    (unreferring : (node.get? "$ref").bind Node.string? = none) : NativeFacet "items" node :=
  ⟨fun same => absurd same (by decide), fun same => absurd same (by decide),
    fun _ => unreferring, by decide⟩

/-- The node of a type is no list. -/
theorem typeNode_ne_sequence (value : JsonValue) (items : List Node) :
    typeNode value ≠ .sequence items := by
  cases value <;> simp [typeNode, toNode]

/-- The node of items holds no reference that is a text. -/
theorem reference_itemsNode (value : JsonValue) :
    ((itemsNode value).get? "$ref").bind Node.string? = none := by
  unfold itemsNode
  split
  · rfl
  · rename_i other
    rw [get?_toNode]
    cases held : value.get? "$ref" with
    | none => rfl
    | some node =>
      rw [held, Option.bind_some] at other
      rw [Option.map_some, Option.bind_some, string?_toNode, other]

/-- Every keyword becomes a facet of native shape, or none. -/
theorem nativeFacet_of_facet? (made : facet? keyword value = some facet) :
    NativeFacet facet.1 facet.2 := by
  unfold facet? at made
  split at made
  · cases made
    exact nativeFacet_type (typeNode_ne_sequence value)
  split at made
  · cases made
    exact nativeFacet_items (reference_itemsNode value)
  split at made
  · contradiction
  rename_i untyped itemless unrequired
  split at made
  · split at made
    · cases made
      exact nativeFacet_type fun _ => Node.noConfusion
    · rename_i other
      cases made
      refine nativeFacet_reference ?_
      rw [string?_toNode]
      cases value with
      | string location => exact absurd rfl (other location)
      | _ => rfl
  · rename_i plain
    cases made
    exact ⟨fun same => absurd same untyped, fun same => absurd same plain,
      fun same => absurd same itemless, unrequired⟩

/-- The facets of a schema are those of its keywords and at most the type that they imply. -/
theorem nativeFacet_of_mem_facets (inside : facet ∈ (Schema.facets members).entries) :
    NativeFacet facet.1 facet.2 := by
  have given : ∀ facet ∈ (OrderedMap.ofList (facetEntries members)).entries,
      NativeFacet facet.1 facet.2 := by
    intro facet inside
    obtain ⟨member, -, made⟩ :=
      List.mem_filterMap.mp (OrderedMap.mem_of_mem_ofList inside)
    exact nativeFacet_of_facet? made
  rw [facets_eq] at inside
  split at inside
  · exact given facet inside
  · split at inside
    · rename_i type implied
      have written : facet ∈ ((OrderedMap.ofList (facetEntries members)).insertMany
        [("type", type)]).entries := inside
      rcases OrderedMap.mem_of_mem_insertMany written with old | new
      · exact given facet old
      · obtain ⟨name, rfl⟩ : ∃ name, type = .string name := by
          unfold impliedNode at implied
          split at implied
          · exact ⟨_, (Option.some.inj implied).symm⟩
          · split at implied
            · exact ⟨_, (Option.some.inj implied).symm⟩
            · contradiction
        rw [List.mem_singleton.mp new]
        exact nativeFacet_type fun _ => Node.noConfusion
    · exact given facet inside

/-- However a property's schema is read, its facets are of native shape. -/
theorem nativeFacet_of_propertyFacets (read : propertyFacets name schema = .ok facets) :
    ∀ facet ∈ facets.entries, NativeFacet facet.1 facet.2 := by
  intro facet inside
  unfold propertyFacets at read
  split at read
  · cases read
    have alone : facet ∈ [("type", _)] := inside
    rw [List.mem_singleton.mp alone]
    exact nativeFacet_type fun _ => Node.noConfusion
  · cases read
    exact nativeFacet_of_mem_facets inside
  · split at read
    · cases read
      exact nativeFacet_of_mem_facets inside
    · contradiction

/-- Facets of native shape with their requirement. -/
structure NativeShape (facets : Facets) : Prop where
  /-- The last facet is the requirement. -/
  last : ∃ others flag, facets.entries = others ++ [("required", .bool flag)]
  /-- The type is no list. -/
  type : ∀ items, facets.get? "type" ≠ some (.sequence items)
  /-- No reference that is a text is left. -/
  reference : ∀ node, facets.get? "$ref" = some node → node.string? = none
  /-- The items hold no reference that is a text. -/
  items : ∀ node, facets.get? "items" = some node → (node.get? "$ref").bind Node.string? = none

/-- The requirement comes last after facets of native shape. -/
theorem nativeShape_insert (native : ∀ facet ∈ facets.entries, NativeFacet facet.1 facet.2)
    (flag : Bool) : NativeShape (facets.insert "required" (.bool flag)) := by
  have kept {name : String} {node : Node} (apart : name ≠ "required")
      (found : (facets.insert "required" (.bool flag)).get? name = some node) :
      NativeFacet name node := by
    rw [OrderedMap.get?_insert, if_neg apart] at found
    exact native _ (OrderedMap.get?_eq_some.mp found)
  constructor
  · have missing : "required" ∉ Entries.keys facets.entries := by
      intro present
      obtain ⟨facet, inside, named⟩ := List.mem_map.mp present
      exact (native facet inside).other named
    exact ⟨facets.entries, flag, Entries.insert_of_not_mem _ missing⟩
  · intro items found
    exact (kept (by decide) found).type rfl items rfl
  · intro node found
    exact (kept (by decide) found).reference rfl
  · intro node found
    exact (kept (by decide) found).items rfl

end Facets

/-! ## Referenced names -/

section References

variable {location name : String} {property : JsonValue}

/-- A name is the last segment of a reference from whose end the hash signs are dropped. -/
def LastSegment (location name : String) : Prop :=
  ∃ path marks, location.toList = path ++ marks ∧ (∀ char ∈ marks, char = '#') ∧
    path.getLast? ≠ some '#' ∧ ∃ before, Pieces '/' path (before ++ [name.toList])

/-- The hash signs at the end of a text are dropped exactly when none is left there. -/
theorem dropMarks_eq_iff {text path : List Char} :
    text.rdropWhile (· = '#') = path ↔
      ∃ marks, text = path ++ marks ∧ (∀ char ∈ marks, char = '#') ∧ path.getLast? ≠ some '#' := by
  constructor
  · rintro rfl
    refine ⟨text.rtakeWhile (· = '#'), List.rdropWhile_append_rtakeWhile.symm,
      fun char inside => ?_, fun last => ?_⟩
    · simpa using List.mem_rtakeWhile_imp inside
    · obtain ⟨nonempty, same⟩ := List.mem_getLast?_eq_getLast last
      exact List.rdropWhile_last_not _ _ nonempty (decide_eq_true same.symm)
  · rintro ⟨marks, rfl, hashes, last⟩
    have dropped : ∀ char ∈ marks.reverse, decide (char = '#') = true := by
      intro char inside
      simpa using hashes char (List.mem_reverse.mp inside)
    have stopped : path.rdropWhile (· = '#') = path := by
      refine List.rdropWhile_eq_self_iff.mpr fun nonempty mark => last ?_
      rw [List.getLast?_eq_some_getLast nonempty, of_decide_eq_true mark]
    rw [List.rdropWhile, List.reverse_append, List.dropWhile_append_of_pos dropped,
      ← List.rdropWhile, stopped]

/-- Of the pieces that a text is split into there is a last one. -/
theorem exists_splitOn_concat (separator : Char) (text : List Char) :
    ∃ before, text.splitOn separator = before ++ [(text.splitOn separator).getLastD []] := by
  have nonempty := List.splitOn_ne_nil separator text
  refine ⟨(text.splitOn separator).dropLast, ?_⟩
  rw [List.getLastD_eq_getLast?, List.getLast?_eq_some_getLast nonempty, Option.getD_some,
    List.dropLast_concat_getLast]

/-- The referenced name is read in the text that is left when the hash signs are dropped. -/
theorem referencedName_eq : referencedName location =
    String.ofList (((location.toList.rdropWhile (· = '#')).splitOn '/').getLastD []) := rfl

/-- The referenced name is the last segment of the reference. -/
theorem referencedName_eq_iff : referencedName location = name ↔ LastSegment location name := by
  constructor
  · rintro rfl
    obtain ⟨marks, divided, hashes, last⟩ :=
      (dropMarks_eq_iff : location.toList.rdropWhile (· = '#') = _ ↔ _).mp rfl
    obtain ⟨before, pieces⟩ := exists_splitOn_concat '/' _
    refine ⟨_, marks, divided, hashes, last, before, splitOn_eq_iff.mp (pieces.trans ?_)⟩
    rw [referencedName_eq, String.toList_ofList]
  · rintro ⟨path, marks, divided, hashes, last, before, pieces⟩
    have dropped := dropMarks_eq_iff.mpr ⟨marks, divided, hashes, last⟩
    rw [referencedName_eq, dropped, splitOn_eq_iff.mpr pieces, List.getLastD_concat,
      String.ofList_toList]

/-- A text may be left out where none is needed, and otherwise it is read. -/
theorem isSome_textOrEmpty? {given : Option JsonValue}
    (texts : ∀ value, given = some value → value.string?.isSome) :
    (Reference.textOrEmpty? given).isSome := by
  cases given with
  | none => rfl
  | some value => exact texts value rfl

/-- A property whose schema is a reference has the referenced name as its type. -/
theorem propertyFacets_reference (key : String)
    (reference : property.get? "$ref" = some (.string location))
    (texts : ∀ key ∈ ["description", "summary"], ∀ note, property.get? key = some note →
      note.string?.isSome) :
    propertyFacets key property =
      .ok (OrderedMap.empty.insert "type" (.string (referencedName location))) := by
  cases property with
  | object members =>
    obtain ⟨description, described⟩ := Option.isSome_iff_exists.mp
      (isSome_textOrEmpty? (texts "description" (by simp)))
    obtain ⟨summary, summarized⟩ := Option.isSome_iff_exists.mp
      (isSome_textOrEmpty? (texts "summary" (by simp)))
    rw [JsonValue.get?] at reference described summarized
    have read : Reference.ofJson? (.object members) = some ⟨location, description, summary⟩ := by
      simp [Reference.ofJson?, Reference.ofMembers?, reference, described, summarized,
        JsonValue.string?]
    rw [propertyFacets, model?, read]
  | _ => contradiction

end References

/-! ## Properties of a text -/

/-- Every property that a text gives is an inline declaration of native shape, and one whose last
declaration has a reference as its schema has the last segment of the reference as its type
expression. -/
theorem properties_native {text : String} {found : Properties}
    (parsed : Schema.properties text = .ok found) :
    ∃ schema, JsonValue.ofText? (String.ofList (Text.trim text.toList)) = some schema ∧
      ∀ name value, found.get? name = some value → ∃ facets member property,
        value = .inline facets ∧ NativeShape facets ∧
        lastDeclaration? name (walk (normalize schema)) = some (member, property) ∧
        ∀ location, property.get? "$ref" = some (.string location) →
          (∀ key ∈ ["description", "summary"], ∀ note, property.get? key = some note →
            note.string?.isSome) →
          LastSegment location (Property.ofValue name value).expression := by
  obtain ⟨schema, read, distinct, parsed⟩ := exists_normal parsed
  refine ⟨schema, read, fun name value under => ?_⟩
  have present : name ∈ found.keys := OrderedMap.mem_keys_iff.mpr ⟨value, under⟩
  obtain ⟨member, property, last⟩ := exists_lastDeclaration? parsed present
  obtain ⟨facets, flag, made, -, given⟩ := get?_propertiesOf distinct parsed last
  cases given.symm.trans under
  refine ⟨_, member, property, rfl, nativeShape_insert (nativeFacet_of_propertyFacets made) flag,
    last, fun location reference texts => referencedName_eq_iff.mp ?_⟩
  cases (propertyFacets_reference name reference texts).symm.trans made
  rfl

/-- A schema with a property that refers to another schema, with a hash sign at the end, and one
that is a list of such references. -/
def referringSchema : JsonValue :=
  .object [("properties", .object [
    ("home", .object [("summary", .string "Where"), ("$ref", .string "#/types/Address#")]),
    ("names", .object [("type", .array [.string "null", .string "array"]),
      ("items", .object [("$ref", .string "#/types/Name")])])])]

/-- The text of that schema. -/
def referringText : String :=
  "\x7b\"properties\":\x7b" ++
    "\"home\":\x7b\"summary\":\"Where\",\"$ref\":\"#/types/Address#\"\x7d," ++
    "\"names\":\x7b\"type\":[\"null\",\"array\"]," ++
    "\"items\":\x7b\"$ref\":\"#/types/Name\"\x7d\x7d\x7d\x7d"

/-- In the sample `home` is of the type `Address`, and `names` is of native shape. -/
theorem properties_native_sample :
    ∃ found home names, Schema.properties referringText = .ok found ∧
      found.get? "home" = some home ∧ (Property.ofValue "home" home).expression = "Address" ∧
      found.get? "names" = some (.inline names) ∧ NativeShape names := by
  have read : JsonValue.ofText? (String.ofList (Text.trim referringText.toList)) =
      some referringSchema := by decide +kernel
  have keys : (propertiesOf (normalize referringSchema)).toOption.map OrderedMap.keys =
      some ["home", "names"] := by decide +kernel
  obtain ⟨found, parsed, keys⟩ := exists_properties_of_ofText? read keys
  obtain ⟨schema, same, native⟩ := properties_native parsed
  cases read.symm.trans same
  have held (name : String) (present : name ∈ found.keys) : ∃ value, found.get? name = some value :=
    OrderedMap.mem_keys_iff.mp present
  obtain ⟨home, homeUnder⟩ := held "home" (by simp [keys])
  obtain ⟨names, namesUnder⟩ := held "names" (by simp [keys])
  obtain ⟨_, member, property, -, -, last, segment⟩ := native _ _ homeUnder
  obtain ⟨facets, -, -, rfl, shape, -⟩ := native _ _ namesUnder
  have declared : (lastDeclaration? "home" (walk (normalize referringSchema))).map Prod.snd =
      some (.object [("summary", .string "Where"), ("$ref", .string "#/types/Address#")]) := by
    decide +kernel
  rw [last] at declared
  cases declared
  refine ⟨found, home, facets, parsed, homeUnder, ?_, namesUnder, shape⟩
  rw [← referencedName_eq_iff.mpr (segment "#/types/Address#" rfl (by decide))]
  decide

end Raml.Schema
