import Mathlib.Data.List.Pairwise
import Raml.Proofs.NamedEntries
import Raml.Proofs.NumberText

/-!
# Names of the entries of a mapping

Keys of one text are alike unless one of them is a string, since the text of a boolean or a number
determines its value. So of a mapping without alike keys an entry is lost in reading exactly when a
string is spelled like a key of another kind. Facets and properties are written with strings for
keys, so they are read back as they are.
-/
namespace Raml

universe u

namespace Node

variable {α : Type u} {decodes : Node → α → Prop} {entries : List (Node × Node)}
  {left right : Node} {text : String}

/-- Two scalars with one text, which is that of a string for both or for none, are alike. -/
theorem alike_of_hasText (first : left.HasText text) (second : right.HasText text)
    (strings : left = .string text ↔ right = .string text) : left.alike right = true := by
  have word (value : Bool) (number : Number) : number.text ≠ if value then "true" else "false" := by
    intro same
    obtain ⟨front, rest, shape, unlike⟩ := number.head_text
    rw [same] at shape
    cases value <;> cases shape <;> exact absurd unlike (by decide)
  generalize spelled : text = spelling at second
  cases first with
  | string _ =>
    obtain rfl := strings.mp rfl
    exact decide_eq_true rfl
  | bool value =>
    cases second with
    | string _ => exact absurd (strings.mpr (spelled ▸ rfl)) Node.noConfusion
    | bool other => cases value <;> cases other <;> first | rfl | exact absurd spelled (by decide)
    | number other => exact absurd spelled.symm (word value other)
  | number value =>
    cases second with
    | string _ => exact absurd (strings.mpr (spelled ▸ rfl)) Node.noConfusion
    | bool other => exact absurd spelled (word other value)
    | number other => exact Number.sameValue_of_text spelled

/-- The keys of two entries have no text in common. -/
def Apart (first second : Node × Node) : Prop :=
  ∀ text, first.1.HasText text → ¬second.1.HasText text

/-- No string among the keys is spelled like a key of another kind. -/
def SpelledApart (entries : List (Node × Node)) : Prop :=
  ∀ first ∈ entries, ∀ second ∈ entries, ∀ text,
    first.1 = .string text → second.1.HasText text → second.1 = .string text

/-- No key is alike to a later one. -/
theorem distinctKeys_iff_pairwise : distinctKeys entries = true ↔
    entries.Pairwise fun first second => ¬first.1.alike second.1 = true := by
  induction entries with
  | nil => simp [distinctKeys]
  | cons entry rest ih =>
    obtain ⟨key, value⟩ := entry
    rw [distinctKeys, Bool.and_eq_true, ih, List.pairwise_cons, Bool.not_eq_true',
      List.any_eq_false]

/-- Keys without likeness have texts of their own exactly when the strings among them are spelled
like no key of another kind. -/
theorem pairwise_apart_iff (distinct : distinctKeys entries = true) :
    entries.Pairwise Apart ↔ SpelledApart entries := by
  constructor
  · intro apart
    let OneOrApart (first second : Node × Node) : Prop :=
      first = second ∨ Apart first second ∧ Apart second first
    have symmetric : Std.Symm OneOrApart := ⟨fun _ _ => Or.imp Eq.symm And.symm⟩
    have either : entries.Pairwise OneOrApart :=
      apart.imp fun none => .inr ⟨none, fun text has also => none text also has⟩
    intro first firstIn second secondIn text own has
    rcases either.forall_of_forall (fun _ _ => .inl rfl) firstIn secondIn with rfl | ⟨none, -⟩
    · exact own
    · exact absurd has (none text (own ▸ .string text))
  · intro spelled
    refine (distinctKeys_iff_pairwise.mp distinct).imp_of_mem
      fun {first second} firstIn secondIn unlike text has also => ?_
    exact unlike (alike_of_hasText has also
      ⟨fun own => spelled first firstIn second secondIn text own also,
        fun own => spelled second secondIn first firstIn text own has⟩)

/-- The names of entries are the texts of their keys. -/
theorem mem_keys_iff_of_gives {named : List (String × α)}
    (gives : List.Forall₂ (Gives decodes) entries named) :
    text ∈ Entries.keys named ↔ ∃ entry ∈ entries, entry.1.HasText text := by
  induction gives with
  | nil => simp [Entries.keys]
  | @cons entry value rest later own gives ih =>
    have here : text = value.1 ↔ entry.1.HasText text :=
      ⟨fun same => same ▸ own.1, fun has => has.unique own.1⟩
    rw [Entries.keys, List.map_cons, List.mem_cons, List.exists_mem_cons_iff, here]
    exact or_congr_right ih

/-- The names of entries are distinct exactly when their keys have no text in common. -/
theorem nodup_keys_iff {named : List (String × α)}
    (gives : List.Forall₂ (Gives decodes) entries named) :
    (Entries.keys named).Nodup ↔ entries.Pairwise Apart := by
  induction gives with
  | nil => simp [Entries.keys]
  | @cons entry value rest later own gives ih =>
    have absent : value.1 ∉ Entries.keys later ↔ ∀ other ∈ rest, Apart entry other := by
      rw [mem_keys_iff_of_gives gives, not_exists]
      constructor
      · intro unlike other inside text has also
        exact unlike other ⟨inside, own.1.unique has ▸ also⟩
      · rintro apart other ⟨inside, has⟩
        exact apart other inside value.1 own.1 has
    rw [Entries.keys, List.map_cons, List.nodup_cons, List.pairwise_cons]
    exact and_congr absent ih

/-- A map that takes over the values of entries without alike keys has one value for each of them,
in their order, exactly when no string among the keys is spelled like a key of another kind. -/
theorem gives_entries_iff {map : OrderedMap α} {named : List (String × α)}
    (distinct : distinctKeys entries = true) (gives : List.Forall₂ (Gives decodes) entries named)
    (merges : map.Merges named) :
    List.Forall₂ (Gives decodes) entries map.entries ↔ SpelledApart entries := by
  rw [← pairwise_apart_iff distinct]
  constructor
  · intro each
    exact (nodup_keys_iff each).mp map.distinct
  · intro apart
    rw [← OrderedMap.merges_iff.mp merges,
      OrderedMap.entries_ofList ((nodup_keys_iff gives).mpr apart)]
    exact gives

end Node

/-- Facets and properties are read of a mapping, which has no alike keys, as follows. Each name
stands where it first occurs as the text of a key and has the last value that is given under it.
There is one value for each entry, in the order of the entries, exactly when no string among the
keys is spelled like a key of another kind. -/
theorem entries_kept_iff {entries : List (Node × Node)}
    (distinct : Node.distinctKeys entries = true) :
    (∀ facets, Facets.ofMapping entries = .ok facets →
      (∃ named, List.Forall₂ (Node.Gives Eq) entries named ∧ facets.Merges named) ∧
        (List.Forall₂ (Node.Gives Eq) entries facets.entries ↔ Node.SpelledApart entries)) ∧
    ∀ properties, Properties.ofMapping entries = .ok properties →
      (∃ named, List.Forall₂ (Node.Gives Properties.Declares) entries named ∧
        properties.Merges named) ∧
        (List.Forall₂ (Node.Gives Properties.Declares) entries properties.entries ↔
          Node.SpelledApart entries) := by
  constructor
  · intro facets read
    obtain ⟨named, gives, merges⟩ := Facets.ofMapping_eq_ok.mp read
    exact ⟨⟨named, gives, merges⟩, Node.gives_entries_iff distinct gives merges⟩
  · intro properties read
    obtain ⟨named, gives, merges⟩ := Properties.ofMapping_eq_ok.mp read
    exact ⟨⟨named, gives, merges⟩, Node.gives_entries_iff distinct gives merges⟩

/-- Keys of several kinds with different texts: `200`, `1.5`, `true` and a name. -/
def keptSample : List (Node × Node) :=
  [(.number (.int 200), .string "integer"), (.number (.float (.ofRatio false 3 2)), .string "Base"),
    (.bool true, .null), (.string "name", .string "string")]

/-- The sample is read with each value under the text of its key. -/
theorem entries_kept_iff_sample :
    Node.distinctKeys keptSample = true ∧ ∃ facets properties,
      Facets.ofMapping keptSample = .ok facets ∧ Properties.ofMapping keptSample = .ok properties ∧
        facets.keys = ["200", "1.5", "true", "name"] ∧
        List.Forall₂ (Node.Gives Eq) keptSample facets.entries ∧
        List.Forall₂ (Node.Gives Properties.Declares) keptSample properties.entries := by
  have distinct : Node.distinctKeys keptSample = true := by decide +kernel
  have texts : ∀ first ∈ keptSample, ∀ second ∈ keptSample,
      first.1.scalarText? = second.1.scalarText? → first.1 = second.1 := by decide +kernel
  have spelled : Node.SpelledApart keptSample := by
    intro first firstIn second secondIn text own has
    rw [← texts first firstIn second secondIn (by rw [own, Node.scalarText?_eq_some.mpr has]; rfl)]
    exact own
  obtain ⟨facets, read, names⟩ : ∃ facets, Facets.ofMapping keptSample = .ok facets ∧
      facets.keys = ["200", "1.5", "true", "name"] :=
    ⟨.ofList [("200", .string "integer"), ("1.5", .string "Base"), ("true", .null),
      ("name", .string "string")], by decide +kernel, by decide +kernel⟩
  obtain ⟨properties, declared⟩ : ∃ properties, Properties.ofMapping keptSample = .ok properties :=
    ⟨.ofList [("200", .reference "integer"), ("1.5", .reference "Base"), ("true", .raw .null),
      ("name", .reference "string")], by decide +kernel⟩
  obtain ⟨ofFacets, ofProperties⟩ := entries_kept_iff distinct
  exact ⟨distinct, facets, properties, read, declared, names, (ofFacets facets read).2.mpr spelled,
    (ofProperties properties declared).2.mpr spelled⟩

/-- Distinct keys of one text: the number `1` and the string `1`. -/
def mergedSample : List (Node × Node) :=
  [(.number (.int 1), .string "integer"), (.string "1", .string "string")]

/-- Of two distinct keys with one text only the value of the last is kept. -/
theorem distinct_keys_merged :
    Node.distinctKeys mergedSample = true ∧
      (∃ facets, Facets.ofMapping mergedSample = .ok facets ∧
        facets.entries = [("1", .string "string")] ∧
        ¬List.Forall₂ (Node.Gives Eq) mergedSample facets.entries) ∧
      ∃ properties, Properties.ofMapping mergedSample = .ok properties ∧
        properties.entries = [("1", .reference "string")] ∧
        ¬List.Forall₂ (Node.Gives Properties.Declares) mergedSample properties.entries := by
  have lost {α : Type} {decodes : Node → α → Prop} {named : List (String × α)}
      (single : named.length = 1) : ¬List.Forall₂ (Node.Gives decodes) mergedSample named := by
    intro gives
    have lengths : mergedSample.length = named.length := gives.length_eq
    rw [single] at lengths
    exact absurd lengths (by decide)
  exact ⟨by decide +kernel,
    ⟨.ofList [("1", .string "string")], by decide +kernel, rfl, lost rfl⟩,
    ⟨.ofList [("1", .reference "string")], by decide +kernel, rfl, lost rfl⟩⟩

/-- What is written as a mapping is read back: facets, and properties that were read of some
mapping. The written mapping has no alike keys. -/
theorem written_entries_read_back :
    (∀ facets : Facets, Node.distinctKeys facets.toMapping = true ∧
      Facets.ofMapping facets.toMapping = .ok facets) ∧
    ∀ entries properties, Properties.ofMapping entries = .ok properties →
      Node.distinctKeys properties.toMapping = true ∧
        Properties.ofMapping properties.toMapping = .ok properties := by
  constructor
  · intro facets
    exact ⟨Node.distinctKeys_keyed.mpr facets.distinct, Facets.ofMapping_keyed facets.distinct⟩
  · intro entries properties success
    obtain ⟨found, read, rfl⟩ := map_eq_ok.mp success
    have readable : ∀ entry ∈ (OrderedMap.ofList found).entries, entry.2.Readable :=
      fun entry inside =>
        Properties.readable_of_read read entry (OrderedMap.mem_of_mem_ofList inside)
    rw [Properties.toMapping_eq, Node.distinctKeys_keyed, Properties.keys_nodes]
    refine ⟨(OrderedMap.ofList found).distinct, ?_⟩
    rw [Properties.ofMapping, Properties.read_nodes readable]
    exact congrArg Except.ok (OrderedMap.ofList_entries _)

/-- Declarations of every form, with keys that are no strings: a name, facets, and a mapping under a
tag, which is kept as it is. -/
def declaredSample : List (Node × Node) :=
  [(.string "name", .string "string"),
    (.number (.int 200), .mapping [(.bool true, .string "Base"), (.number (.int 1), .null)]),
    (.bool false, .tagged "x" (.mapping [(.null, .null)]))]

/-- The properties of the sample are read back, although their keys have become strings. -/
theorem written_entries_read_back_sample :
    ∃ properties, Properties.ofMapping declaredSample = .ok properties ∧
      properties.toMapping ≠ declaredSample ∧
      Properties.ofMapping properties.toMapping = .ok properties := by
  obtain ⟨properties, read, strings⟩ : ∃ properties,
      Properties.ofMapping declaredSample = .ok properties ∧
        properties.toMapping ≠ declaredSample :=
    ⟨.ofList [("name", .reference "string"),
      ("200", .inline (.ofList [("true", .string "Base"), ("1", .null)])),
      ("false", .raw (.tagged "x" (.mapping [(.null, .null)])))], by decide +kernel,
      by decide +kernel⟩
  exact ⟨properties, read, strings, (written_entries_read_back.2 _ properties read).2⟩

end Raml
