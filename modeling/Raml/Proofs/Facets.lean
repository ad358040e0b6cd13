import Raml.Facets
import Raml.Proofs.OrderedMap

/-!
# Reading facets

A mapping is read as facets exactly when every key has a text, and the texts are the names.
-/
namespace Raml.Facets

/-- The names of the entries are the texts of the keys. -/
theorem scalarText?_of_named {entries : List (Node × Node)} {found : List (String × Node)}
    (read : named entries = .ok found) :
    entries.map (fun entry => entry.1.scalarText?) = (Entries.keys found).map some := by
  induction entries generalizing found with
  | nil =>
    simp only [named, Except.ok.injEq] at read
    simp [← read]
  | cons entry rest ih =>
    obtain ⟨key, value⟩ := entry
    simp only [named] at read
    cases text : key.scalarText? with
    | none => simp [text] at read
    | some name =>
      cases later : named rest with
      | error cause => simp [text, later, Except.map] at read
      | ok others =>
        simp only [text, later, Except.map, Except.ok.injEq] at read
        simp [← read, text, ih later, Entries.keys]

/-- Entries whose keys all have texts are named. -/
theorem exists_named {entries : List (Node × Node)}
    (texts : ∀ entry ∈ entries, ∃ text, entry.1.scalarText? = some text) :
    ∃ found, named entries = .ok found := by
  induction entries with
  | nil => exact ⟨[], rfl⟩
  | cons entry rest ih =>
    obtain ⟨key, value⟩ := entry
    obtain ⟨text, read⟩ := texts (key, value) List.mem_cons_self
    obtain ⟨found, later⟩ := ih fun other inside => texts other (List.mem_cons_of_mem _ inside)
    have named : key.scalarText? = some text := read
    exact ⟨(text, value) :: found, by simp [Facets.named, named, later, Except.map]⟩

/-- The names of the facets of a mapping are the texts of its keys. -/
theorem mem_keys_ofMapping {entries : List (Node × Node)} {facets : Facets}
    (read : ofMapping entries = .ok facets) (name : String) :
    name ∈ facets.keys ↔ ∃ entry ∈ entries, entry.1.scalarText? = some name := by
  unfold ofMapping at read
  split at read
  · rename_i found named
    simp only [Except.ok.injEq] at read
    rw [← read, OrderedMap.mem_keys_ofList]
    have texts := scalarText?_of_named named
    calc
      name ∈ Entries.keys found ↔ some name ∈ (Entries.keys found).map some := by simp
      _ ↔ some name ∈ entries.map fun entry => entry.1.scalarText? := by rw [texts]
      _ ↔ ∃ entry ∈ entries, entry.1.scalarText? = some name := by simp
  · contradiction

/-- A mapping reads as facets without a name exactly when every key has a text, and another one. -/
theorem ofMapping_without_iff {entries : List (Node × Node)} {name : String} :
    (∃ facets, ofMapping entries = .ok facets ∧ facets.get? name = none) ↔
      ∀ entry ∈ entries, ∃ text, entry.1.scalarText? = some text ∧ text ≠ name := by
  constructor
  · rintro ⟨facets, read, absent⟩ entry inside
    have missing := OrderedMap.get?_eq_none.mp absent
    rw [mem_keys_ofMapping read] at missing
    cases text : entry.1.scalarText? with
    | none =>
      unfold ofMapping at read
      split at read
      · rename_i found named
        have texts := scalarText?_of_named named
        have member : (none : Option String) ∈ entries.map fun entry => entry.1.scalarText? :=
          List.mem_map.mpr ⟨entry, inside, text⟩
        rw [texts] at member
        simp at member
      · contradiction
    | some found =>
      refine ⟨found, rfl, fun same => missing ⟨entry, inside, ?_⟩⟩
      rw [text, same]
  · intro texts
    obtain ⟨found, read⟩ := exists_named fun entry inside =>
      (texts entry inside).imp fun _ both => both.1
    have mapped : ofMapping entries = .ok (OrderedMap.ofList found) := by simp [ofMapping, read]
    refine ⟨_, mapped, OrderedMap.get?_eq_none.mpr ?_⟩
    rw [mem_keys_ofMapping mapped]
    rintro ⟨entry, inside, same⟩
    obtain ⟨text, other, apart⟩ := texts entry inside
    rw [same, Option.some.injEq] at other
    exact apart other.symm

end Raml.Facets
