import Mathlib.Data.List.Induction
import Raml.Document
import Raml.Proofs.ResolveAll
import Raml.Proofs.Success

/-!
# How documents are read

The entries of a section count, and not whether they stand in one mapping or in a list of several. A
name stands where it is first declared and has its last declaration. The types that a resolution
creates come after those, and never in the place of one.
-/
namespace Raml

/-- Entries are named one after another. -/
theorem Facets.named_append (entries others : List (Node × Node)) :
    named (entries ++ others) =
      match named entries with
      | .ok own => (named others).map (own ++ ·)
      | .error key => .error key := by
  induction entries with
  | nil => cases found : named others <;> simp [named, found, Except.map]
  | cons entry rest ih =>
    obtain ⟨key, value⟩ := entry
    rw [List.cons_append, named, named]
    cases key.scalarText? with
    | none => rfl
    | some name =>
      simp only [ih]
      cases named rest with
      | error key => rfl
      | ok own => cases named others <;> rfl

namespace Document

section Sections

/-- The entries of the mappings of a list, if it has nothing else. -/
def joined : List Node → Option (List (Node × Node))
  | [] => some []
  | .mapping entries :: rest => (joined rest).map (entries ++ ·)
  | _ :: _ => none

/-- The entries of a section as they stand, if it has a form that a section may have. -/
def written : Option Node → Option (List (Node × Node))
  | none | some .null => some []
  | some (.mapping entries) => some entries
  | some (.sequence items) => joined items
  | _ => none

/-- Two sections are the same, or each is a mapping or a list of mappings, and they have the same
entries in the same order. -/
inductive SameEntries : Option Node → Option Node → Prop where
  | refl (section? : Option Node) : SameEntries section? section?
  | written {left right : Option Node} {entries : List (Node × Node)}
      (first : written left = some entries) (second : written right = some entries) :
      SameEntries left right

variable {root other : Node} {name : String}

/-- A list of mappings is read as one mapping. -/
theorem listEntries_of_joined {items : List Node} {entries : List (Node × Node)}
    (whole : joined items = some entries) :
    listEntries name items = mappingEntries name entries := by
  induction items generalizing entries with
  | nil =>
    cases whole
    rfl
  | cons item rest ih =>
    cases item with
    | mapping own =>
      obtain ⟨others, later, rfl⟩ := Option.map_eq_some_iff.mp whole
      rw [listEntries, ih later]
      unfold mappingEntries
      rw [Facets.named_append]
      cases Facets.named own with
      | error key => rfl
      | ok named => cases Facets.named others <;> rfl
    | _ => contradiction

/-- A section is read as the mapping of its entries. -/
theorem sectionEntries_of_written {entries : List (Node × Node)}
    (whole : written (root.get? name) = some entries) :
    sectionEntries root name = mappingEntries name entries := by
  unfold sectionEntries
  cases found : root.get? name with
  | none =>
    rw [found] at whole
    cases whole
    rfl
  | some node =>
    rw [found] at whole
    cases node with
    | null =>
      cases whole
      rfl
    | mapping own =>
      cases whole
      rfl
    | sequence items => exact listEntries_of_joined whole
    | _ => contradiction

/-- Sections with the same entries are read alike. -/
theorem sectionEntries_congr (same : SameEntries (root.get? name) (other.get? name)) :
    sectionEntries root name = sectionEntries other name := by
  generalize left : root.get? name = first at same
  generalize right : other.get? name = second at same
  cases same with
  | refl => rw [sectionEntries, sectionEntries, left, right]
  | written first second =>
    rw [sectionEntries_of_written (left ▸ first), sectionEntries_of_written (right ▸ second)]

/-- Sections that are read alike declare the same types. -/
theorem declareSections_congr {names : List String}
    (same : ∀ name ∈ names, sectionEntries root name = sectionEntries other name)
    (types : Registry) : declareSections root names types = declareSections other names types := by
  induction names generalizing types with
  | nil => rfl
  | cons name rest ih =>
    rw [List.forall_mem_cons] at same
    rw [declareSections, declareSections, same.1]
    cases sectionEntries other name with
    | error cause => rfl
    | ok entries =>
      cases made : declareEntries entries types with
      | error cause => simp only [made]
      | ok declared =>
        simp only [made]
        exact ih same.2 declared

/-- Documents whose sections have the same entries are read alike. -/
theorem ofNode_congr
    (same : ∀ name ∈ typeSections ++ [traitSection],
      SameEntries (root.get? name) (other.get? name)) : ofNode root = ofNode other := by
  have alike : ∀ name ∈ typeSections ++ [traitSection],
      sectionEntries root name = sectionEntries other name :=
    fun name inside => sectionEntries_congr (same name inside)
  have types := declareSections_congr (fun name inside =>
    alike name (List.mem_append_left _ inside)) .empty
  have traits := alike traitSection (by simp)
  unfold ofNode declared
  rw [types, traits]

end Sections

section Entries

variable {α : Type} {read : String → Node → Except Error α}

/-- Read entries one after another, and write each under its name. -/
def collect (read : String → Node → Except Error α) :
    List (String × Node) → OrderedMap α → Except Error (OrderedMap α)
  | [], map => .ok map
  | (name, node) :: rest, map =>
    match read name node with
    | .ok value => collect read rest (map.insert name value)
    | .error error => .error error

/-- Later entries are read after earlier ones. -/
theorem collect_append (entries others : List (String × Node)) (map : OrderedMap α) :
    collect read (entries ++ others) map =
      match collect read entries map with
      | .ok between => collect read others between
      | .error error => .error error := by
  induction entries generalizing map with
  | nil => rfl
  | cons entry rest ih =>
    rw [List.cons_append, collect, collect]
    cases read entry.1 entry.2 with
    | error error => rfl
    | ok value => exact ih _

/-- What was read of entries: a name stands where it first occurs and has its last value. -/
structure Collected (read : String → Node → Except Error α) (entries : List (String × Node))
    (map : OrderedMap α) : Prop where
  /-- The names are in the order of their first entries. -/
  keys_eq : map.keys = (Entries.keys entries).eraseDups
  /-- Each name has the value of its last entry. -/
  last : ∀ name node, Entries.get? name entries.reverse = some node →
    ∃ value, read name node = .ok value ∧ map.get? name = some value

/-- Entries that can be read are collected. -/
theorem collected_of_collect {entries : List (String × Node)} {map : OrderedMap α}
    (success : collect read entries .empty = .ok map) : Collected read entries map := by
  induction entries using List.reverseRecOn generalizing map with
  | nil =>
    cases success
    exact ⟨rfl, by simp [Entries.get?]⟩
  | append_singleton entries entry ih =>
    obtain ⟨name, node⟩ := entry
    rw [collect_append] at success
    cases earlier : collect read entries .empty with
    | error error => simp [earlier] at success
    | ok before =>
      have collected := ih earlier
      rw [earlier] at success
      simp only [collect] at success
      cases made : read name node with
      | error error => simp [made] at success
      | ok value =>
        rw [made] at success
        obtain rfl : before.insert name value = map := Except.ok.inj success
        constructor
        · have names : Entries.keys (entries ++ [(name, node)]) =
              Entries.keys entries ++ [name] := by simp
          rw [OrderedMap.keys_insert, collected.keys_eq, names, List.eraseDups_append]
          by_cases known : name ∈ Entries.keys entries
          · simp [known, List.removeAll]
          · simp [known, List.removeAll, List.eraseDups_cons]
        · intro other found there
          rw [List.reverse_append, List.reverse_singleton, List.singleton_append,
            Entries.get?] at there
          rw [OrderedMap.get?_insert]
          by_cases here : name = other
          · subst here
            rw [if_pos rfl, Option.some.injEq] at there
            exact ⟨value, there ▸ made, if_pos rfl⟩
          · rw [if_neg here] at there
            rw [if_neg fun same => here same.symm]
            exact collected.last other found there

end Entries

/-- The type that an entry declares. -/
def readType (name : String) (node : Node) : Except Error Classified :=
  match Declaration.ofNode name node with
  | .ok declaration => .ok (.ofDeclaration declaration)
  | .error cause => .error (.decode (.declaration cause))

/-- The trait that an entry declares. -/
def readTrait (name : String) (node : Node) : Except Error Trait :=
  match Trait.ofNode node with
  | .ok trait => .ok (trait.withName name)
  | .error cause => .error (.decode (.trait cause))

/-- Entries declare the types that are read of them. -/
theorem declareEntries_eq_collect (entries : List (String × Node)) (types : Registry) :
    declareEntries entries types = collect readType entries types := by
  induction entries generalizing types with
  | nil => rfl
  | cons entry rest ih =>
    obtain ⟨name, node⟩ := entry
    rw [declareEntries, collect, readType]
    cases read : Declaration.ofNode name node with
    | error cause => rfl
    | ok declaration =>
      have named : declaration.name = name := Declaration.name_of_ofNode read
      simp only [Registry.declare, named]
      exact ih _

/-- The traits of entries are read of them. -/
theorem readTraits_eq_collect (entries : List (String × Node)) (traits : OrderedMap Trait) :
    readTraits entries traits = collect readTrait entries traits := by
  induction entries generalizing traits with
  | nil => rfl
  | cons entry rest ih =>
    obtain ⟨name, node⟩ := entry
    rw [readTraits, collect, readTrait]
    cases Trait.ofNode node with
    | error cause => rfl
    | ok trait => exact ih _

/-- A section is declared when it can be read and its entries can be declared. -/
theorem declareSections_cons_eq_ok {root : Node} {name : String} {rest : List String}
    {before after : Registry} :
    declareSections root (name :: rest) before = .ok after ↔
      ∃ entries middle, sectionEntries root name = .ok entries ∧
        declareEntries entries before = .ok middle ∧
        declareSections root rest middle = .ok after := by
  rw [declareSections]
  cases sectionEntries root name with
  | error cause => simp
  | ok entries => cases own : declareEntries entries before <;> simp [own]

/-- A document is read when its sections of types are declared and its traits can be read. -/
theorem declared_eq_ok {root : Node} {document : Document} :
    declared root = .ok document ↔
      ∃ types traits found, declareSections root typeSections .empty = .ok types ∧
        sectionEntries root traitSection = .ok traits ∧
        readTraits traits .empty = .ok found ∧ ⟨types, found⟩ = document := by
  rw [declared]
  cases declareSections root typeSections .empty with
  | error error => simp
  | ok types =>
    cases sectionEntries root traitSection with
    | error cause => simp
    | ok traits => simp [map_eq_ok]

/-- What a document declares is collected from its sections. -/
theorem collected_of_declared {root : Node} {document : Document}
    (read : declared root = .ok document) :
    ∃ types schemas traits, sectionEntries root "types" = .ok types ∧
      sectionEntries root "schemas" = .ok schemas ∧
      sectionEntries root traitSection = .ok traits ∧
      Collected readType (types ++ schemas) document.types ∧
      Collected readTrait traits document.traits := by
  obtain ⟨registry, traits, found, sections, third, made, rfl⟩ := declared_eq_ok.mp read
  obtain ⟨types, before, first, own, later⟩ := declareSections_cons_eq_ok.mp sections
  obtain ⟨schemas, after, second, others, last⟩ := declareSections_cons_eq_ok.mp later
  obtain rfl : after = registry := Except.ok.inj last
  rw [declareEntries_eq_collect] at own others
  rw [readTraits_eq_collect] at made
  have both : collect readType (types ++ schemas) .empty = .ok after := by
    rw [collect_append, own]
    exact others
  exact ⟨types, schemas, traits, first, second, third, collected_of_collect both,
    collected_of_collect made⟩

/-- What a document has of the entries that declare its types and of those that declare its
traits. -/
structure Loaded (types traits : List (String × Node)) (document : Document) : Prop where
  /-- The declared names come first, each where it is first declared; the others are synthesized. -/
  names : ∃ added, document.types.keys = (Entries.keys types).eraseDups ++ added ∧
    ∀ name ∈ added, TypeName.SynthesizedFrom document.types.keys name
  /-- A declared type is the resolved form of its last declaration. Wherever else that declaration
  is resolved with success, it becomes the same. -/
  resolved : ∀ name node, Entries.get? name types.reverse = some node →
    ∃ declaration type, Declaration.ofNode name node = .ok declaration ∧
      document.types.get? name = some type ∧
      Resolution.ResolvesTo name declaration type.declaration ∧
      ∀ (registry : Registry) (other : Classified), registry.get? name = some other →
        other.declaration = declaration → (registry.resolve name).stopped = none →
        ∃ reached, (registry.resolve name).reached.get? name = some reached ∧
          reached.declaration = type.declaration
  /-- The names of the traits, each where it is first declared. -/
  traitNames : document.traits.keys = (Entries.keys traits).eraseDups
  /-- A trait is its last declaration under its name. -/
  traits : ∀ name node, Entries.get? name traits.reverse = some node →
    ∃ trait, Trait.ofNode node = .ok trait ∧
      document.traits.get? name = some (trait.withName name)

/-- Resolving the types that are collected from entries loads them. -/
theorem loaded_of_collected {entries traits : List (String × Node)} {document loaded : Document}
    (types : Collected readType entries document.types)
    (others : Collected readTrait traits document.traits)
    (success : document.resolved = .ok loaded) : Loaded entries traits loaded := by
  unfold resolved at success
  cases ended : document.types.resolveAll.stopped with
  | some error => simp [ended] at success
  | none =>
    simp only [ended, Except.ok.injEq] at success
    subst success
    obtain ⟨added, grown, synthesized⟩ := document.types.exists_synthesized_resolveAll
    constructor
    · exact ⟨added, types.keys_eq ▸ grown, synthesized⟩
    · intro name node last
      obtain ⟨type, read, found⟩ := types.last name node last
      obtain ⟨reached, there, form⟩ := Registry.exists_form_resolveAll ended found
      unfold readType at read
      cases decoded : Declaration.ofNode name node with
      | error cause => simp [decoded] at read
      | ok declaration =>
        rw [decoded] at read
        obtain rfl : Classified.ofDeclaration declaration = type := Except.ok.inj read
        refine ⟨declaration, reached, rfl, there, form, fun registry other known same again => ?_⟩
        obtain ⟨final, resolves, settled⟩ := Registry.exists_form known again
        rw [Registry.get?_declarations, Option.map_eq_some_iff] at settled
        obtain ⟨result, present, rfl⟩ := settled
        exact ⟨result, present, (same ▸ resolves).unique form⟩
    · exact others.keys_eq
    · intro name node last
      obtain ⟨named, read, found⟩ := others.last name node last
      unfold readTrait at read
      cases decoded : Trait.ofNode node with
      | error cause => simp [decoded] at read
      | ok trait =>
        rw [decoded] at read
        exact ⟨trait, rfl, found.trans (congrArg some (Except.ok.inj read).symm)⟩

/-- It makes no difference to a document how its sections are written: with the same entries in the
same order in the three sections, be they in a mapping or in a list of mappings, a document is read
alike, and refused alike. Of a document that is read the names declared in `types` and then in
`schemas` come first, each where it is first declared, and after them come synthesized names only.
Each declared type is what its last declaration is resolved to, in this and in every other registry,
so that no synthesized type of its name takes its place. The traits too stand where they are first
declared and are what is declared last. -/
theorem ofNode_by_entries :
    (∀ root other : Node, (∀ name ∈ typeSections ++ [traitSection],
        SameEntries (root.get? name) (other.get? name)) → ofNode root = ofNode other) ∧
      ∀ root document, ofNode root = .ok document →
        ∃ types schemas traits, sectionEntries root "types" = .ok types ∧
          sectionEntries root "schemas" = .ok schemas ∧
          sectionEntries root traitSection = .ok traits ∧
          Loaded (types ++ schemas) traits document := by
  refine ⟨fun root other => ofNode_congr, fun root document read => ?_⟩
  unfold ofNode at read
  cases first : declared root with
  | error error => simp [first] at read
  | ok before =>
    rw [first] at read
    obtain ⟨types, schemas, traits, own, others, third, collected, named⟩ :=
      collected_of_declared first
    exact ⟨types, schemas, traits, own, others, third, loaded_of_collected collected named read⟩

/-- A document in which the name of a lifted type is declared twice, and only later. -/
def sampleRoot : Node :=
  .mapping [
    (.string "types", .mapping [
      (.string "N", .mapping [(.string "properties", .mapping [
        (.string "a", .mapping [(.string "properties", .mapping [(.string "x", .null)])]),
        (.string "b", .mapping [(.string "properties", .mapping [(.string "y", .null)])])])]),
      (.string "NA", .string "integer")]),
    (.string "schemas", .sequence [.mapping [(.string "NA", .string "string")],
      .mapping [(.string "M", .string "N")]])]

/-- The document with its section of types as a list and the other as a mapping. -/
def sampleOther : Node :=
  .mapping [
    (.string "types", .sequence [
      .mapping [(.string "N", .mapping [(.string "properties", .mapping [
        (.string "a", .mapping [(.string "properties", .mapping [(.string "x", .null)])]),
        (.string "b", .mapping [(.string "properties", .mapping [(.string "y", .null)])])])])],
      .mapping [(.string "NA", .string "integer")]]),
    (.string "schemas", .mapping [(.string "NA", .string "string"), (.string "M", .string "N")])]

/-- Both documents are read alike. The type that is declared twice keeps its first place and its
last declaration, and no type is lifted in its place. -/
theorem ofNode_by_entries_sample :
    ofNode sampleRoot = ofNode sampleOther ∧
      ∃ document, ofNode sampleRoot = .ok document ∧
        document.types.keys = ["N", "NA", "M", "NB"] ∧
        ∃ type, document.types.get? "NA" = some type ∧
          Resolution.ResolvesTo "NA" (.ofParts "NA" (some (.string "string")) .empty)
            type.declaration := by
  have same : ∀ name ∈ typeSections ++ [traitSection],
      SameEntries (sampleRoot.get? name) (sampleOther.get? name) := by
    intro name inside
    simp only [typeSections, traitSection, List.cons_append, List.nil_append, List.mem_cons,
      List.not_mem_nil, or_false] at inside
    rcases inside with rfl | rfl | rfl
    · exact .written rfl rfl
    · exact .written rfl rfl
    · exact .refl none
  refine ⟨ofNode_by_entries.1 sampleRoot sampleOther same, ?_⟩
  have keys : ((ofNode sampleRoot).map fun document => document.types.keys).toOption =
      some ["N", "NA", "M", "NB"] := by decide +kernel
  cases read : ofNode sampleRoot with
  | error error =>
    rw [read] at keys
    contradiction
  | ok document =>
    obtain ⟨types, schemas, traits, own, others, -, loaded⟩ :=
      ofNode_by_entries.2 sampleRoot document read
    cases own
    cases others
    obtain ⟨declaration, type, decoded, found, form, -⟩ :=
      loaded.resolved "NA" (.string "string") rfl
    cases decoded
    rw [read] at keys
    exact ⟨document, rfl, Option.some.inj keys, type, found, form⟩

end Document

end Raml
