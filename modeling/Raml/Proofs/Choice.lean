import Raml.Choice
import Raml.Error
import Raml.Proofs.IllFormed
import Raml.Proofs.NamedEntries

/-!
# The grammar of choices

A choice of a definition is a scalar, or a mapping with one entry, from a scalar to nothing or to a
mapping whose keys are scalars. Exactly the nodes of this grammar are read, each as the choice that
it stands for. A node outside the grammar breaks it in one way, which is the error that reading it
gives; of several nodes the first one outside gives the error.
-/
namespace Raml.Choice

/-- The items of a node that lists choices: the elements of a sequence, or the node alone. -/
def items : Node → List Node
  | .sequence items => items
  | node => [node]

/-- The parameters of a choice: nothing, or a mapping whose keys are scalars. -/
def HoldsParameters (node : Node) : Prop :=
  node = .null ∨ ∃ entries, node = .mapping entries ∧ ∀ entry ∈ entries, entry.1.IsScalar

/-- The grammar of choices. -/
def Grammatical (node : Node) : Prop :=
  node.IsScalar ∨
    ∃ key value, node = .mapping [(key, value)] ∧ key.IsScalar ∧ HoldsParameters value

/-- The choice that a node stands for. -/
inductive StandsFor : Node → Choice → Prop where
  /-- A scalar is a name alone. -/
  | bare {node : Node} {name : String} (text : node.HasText name) : StandsFor node (bare name)
  /-- A name with nothing has no parameters. -/
  | empty {key : Node} {name : String} (text : key.HasText name) :
      StandsFor (.mapping [(key, .null)]) (parameterized name .empty)
  /-- A name with a mapping has the entries of the mapping as its parameters. -/
  | given {key : Node} {name : String} {entries : List (Node × Node)}
      {named : List (String × Node)} {parameters : Facets} (text : key.HasText name)
      (gives : List.Forall₂ (Node.Gives Eq) entries named) (merges : parameters.Merges named) :
      StandsFor (.mapping [(key, .mapping entries)]) (parameterized name parameters)

/-- How a node breaks the grammar. -/
inductive Breaks : Node → ChoiceError → Prop where
  /-- It is neither a scalar nor a mapping. -/
  | kind {node : Node} (plain : ¬node.IsScalar) (other : ∀ entries, node ≠ .mapping entries) :
      Breaks node (.kind node)
  /-- It is a mapping without exactly one entry. -/
  | entryCount {entries : List (Node × Node)} (count : entries.length ≠ 1) :
      Breaks (.mapping entries) (.entryCount entries)
  /-- The key of its entry is no scalar. -/
  | nameKey {key value : Node} (unnamed : ¬key.IsScalar) :
      Breaks (.mapping [(key, value)]) (.nameKey key)
  /-- The value of its entry is neither nothing nor a mapping. -/
  | parametersNode {key value : Node} {name : String} (text : key.HasText name)
      (something : value ≠ .null) (other : ∀ entries, value ≠ .mapping entries) :
      Breaks (.mapping [(key, value)]) (.parametersNode name value)
  /-- A key of its parameters is no scalar, and those before it are. -/
  | parameterKey {key unnamed : Node} {name : String} {entries : List (Node × Node)}
      (text : key.HasText name) (first : FirstWith Node.Unnamed entries unnamed) :
      Breaks (.mapping [(key, .mapping entries)]) (.parameterKey (.facet unnamed))

variable {node key value : Node} {name : String} {choice : Choice} {error : ChoiceError}

/-! ## One choice -/

/-- The parameters that are read. -/
theorem parametersOf_eq_ok {parameters : Facets} :
    parametersOf name value = .ok parameters ↔
      value = .null ∧ parameters = .empty ∨
        ∃ entries named, value = .mapping entries ∧
          List.Forall₂ (Node.Gives Eq) entries named ∧ parameters.Merges named := by
  cases value with
  | null => simp [parametersOf, eq_comm]
  | mapping entries =>
    have read : parametersOf name (.mapping entries) = .ok parameters ↔
        Facets.ofMapping entries = .ok parameters := by
      rw [parametersOf]
      cases Facets.ofMapping entries <;> simp
    simp [read, Facets.ofMapping_eq_ok]
  | _ => simp [parametersOf]

/-- Why parameters cannot be read. -/
theorem parametersOf_eq_error :
    parametersOf name value = .error error ↔
      (value ≠ .null ∧ ∀ entries, value ≠ .mapping entries) ∧
          error = .parametersNode name value ∨
        ∃ entries unnamed, value = .mapping entries ∧
          FirstWith Node.Unnamed entries unnamed ∧ error = .parameterKey (.facet unnamed) := by
  cases value with
  | null => simp [parametersOf]
  | mapping entries =>
    have failed : parametersOf name (.mapping entries) = .error error ↔
        ∃ cause, Facets.ofMapping entries = .error cause ∧ error = .parameterKey cause := by
      rw [parametersOf]
      cases Facets.ofMapping entries <;> simp [eq_comm]
    simp only [failed, Facets.ofMapping_eq_error]
    constructor
    · rintro ⟨_, ⟨unnamed, rfl, first⟩, same⟩
      exact .inr ⟨entries, unnamed, rfl, first, same⟩
    · rintro (⟨⟨-, other⟩, -⟩ | ⟨_, unnamed, same, first, rfl⟩)
      · exact absurd rfl (other entries)
      · cases same
        exact ⟨_, ⟨unnamed, rfl, first⟩, rfl⟩
  | _ => simp [parametersOf, eq_comm]

/-- A mapping with one entry is a name with the parameters that its value holds. -/
theorem ofNode_entry_eq_ok :
    ofNode (.mapping [(key, value)]) = .ok choice ↔
      ∃ name parameters, key.HasText name ∧ parametersOf name value = .ok parameters ∧
        parameterized name parameters = choice := by
  simp only [ofNode, ← Node.scalarText?_eq_some]
  cases key.scalarText? with
  | none => simp
  | some name => simp [map_eq_ok]

/-- A mapping with one entry is no choice because of its key or of its value. -/
theorem ofNode_entry_eq_error :
    ofNode (.mapping [(key, value)]) = .error error ↔
      ¬key.IsScalar ∧ error = .nameKey key ∨
        ∃ name, key.HasText name ∧ parametersOf name value = .error error := by
  simp only [ofNode, ← Node.scalarText?_eq_none, ← Node.scalarText?_eq_some]
  cases key.scalarText? with
  | none => simp [eq_comm]
  | some name =>
    simp only [reduceCtorEq, false_and, false_or, Option.some.injEq, exists_eq_left']
    cases parametersOf name value <;> simp [Except.map]

/-- A node that is no mapping is a name alone or nothing. -/
theorem ofNode_of_ne_mapping (other : ∀ entries, node ≠ .mapping entries) :
    ofNode node = match node.scalarText? with
      | some name => .ok (bare name)
      | none => .error (.kind node) := by
  cases node with
  | mapping entries => exact absurd rfl (other entries)
  | _ => rfl

/-- A mapping without exactly one entry is no choice. -/
theorem ofNode_of_count {entries : List (Node × Node)} (count : entries.length ≠ 1) :
    ofNode (.mapping entries) = .error (.entryCount entries) := by
  match entries, count with
  | [], _ | _ :: _ :: _, _ => rfl

/-- A scalar is no mapping. -/
theorem ne_mapping_of_hasText (text : node.HasText name) (entries : List (Node × Node)) :
    node ≠ .mapping entries := by
  rintro rfl
  cases text

/-- A node is read as the choice that it stands for, and as no other one. -/
theorem ofNode_eq_ok : ofNode node = .ok choice ↔ StandsFor node choice := by
  constructor
  · intro read
    by_cases other : ∀ entries, node ≠ .mapping entries
    · rw [ofNode_of_ne_mapping other] at read
      cases text : node.scalarText? with
      | none => simp [text] at read
      | some name =>
        simp only [text, Except.ok.injEq] at read
        exact read ▸ .bare (Node.scalarText?_eq_some.mp text)
    · simp only [ne_eq, not_forall, not_not] at other
      obtain ⟨entries, rfl⟩ := other
      match entries with
      | [(key, value)] =>
        obtain ⟨name, parameters, text, held, rfl⟩ := ofNode_entry_eq_ok.mp read
        rcases parametersOf_eq_ok.mp held with ⟨rfl, rfl⟩ | ⟨entries, named, rfl, gives, merges⟩
        · exact .empty text
        · exact .given text gives merges
      | [] | _ :: _ :: _ => cases read
  · intro stands
    cases stands with
    | bare text =>
      rw [ofNode_of_ne_mapping (ne_mapping_of_hasText text), Node.scalarText?_eq_some.mpr text]
    | empty text => exact ofNode_entry_eq_ok.mpr ⟨_, _, text, rfl, rfl⟩
    | given text gives merges =>
      refine ofNode_entry_eq_ok.mpr ⟨_, _, text, parametersOf_eq_ok.mpr ?_, rfl⟩
      exact .inr ⟨_, _, rfl, gives, merges⟩

/-- Reading a node fails as it breaks the grammar. -/
theorem ofNode_eq_error : ofNode node = .error error ↔ Breaks node error := by
  constructor
  · intro failed
    by_cases other : ∀ entries, node ≠ .mapping entries
    · rw [ofNode_of_ne_mapping other] at failed
      cases text : node.scalarText? with
      | some name => simp [text] at failed
      | none =>
        simp only [text, Except.error.injEq] at failed
        exact failed ▸ .kind (Node.scalarText?_eq_none.mp text) other
    · simp only [ne_eq, not_forall, not_not] at other
      obtain ⟨entries, rfl⟩ := other
      by_cases count : entries.length = 1
      · obtain ⟨⟨key, value⟩, rfl⟩ := List.length_eq_one_iff.mp count
        rcases ofNode_entry_eq_error.mp failed with ⟨unnamed, rfl⟩ | ⟨name, text, stopped⟩
        · exact .nameKey unnamed
        · rcases parametersOf_eq_error.mp stopped with
            ⟨⟨something, other⟩, rfl⟩ | ⟨entries, unnamed, rfl, first, rfl⟩
          · exact .parametersNode text something other
          · exact .parameterKey text first
      · rw [ofNode_of_count count, Except.error.injEq] at failed
        exact failed ▸ .entryCount count
  · intro breaks
    cases breaks with
    | kind plain other =>
      rw [ofNode_of_ne_mapping other, Node.scalarText?_eq_none.mpr plain]
    | entryCount count => exact ofNode_of_count count
    | nameKey unnamed => exact ofNode_entry_eq_error.mpr (.inl ⟨unnamed, rfl⟩)
    | parametersNode text something other =>
      refine ofNode_entry_eq_error.mpr (.inr ⟨_, text, parametersOf_eq_error.mpr ?_⟩)
      exact .inl ⟨⟨something, other⟩, rfl⟩
    | parameterKey text first =>
      refine ofNode_entry_eq_error.mpr (.inr ⟨_, text, parametersOf_eq_error.mpr ?_⟩)
      exact .inr ⟨_, _, rfl, first, rfl⟩

/-- The nodes of the grammar are those that stand for a choice. -/
theorem grammatical_iff : Grammatical node ↔ ∃ choice, StandsFor node choice := by
  constructor
  · rintro (scalar | ⟨key, value, rfl, named, rfl | ⟨entries, rfl, keys⟩⟩)
    · obtain ⟨name, text⟩ := Node.isScalar_iff.mp scalar
      exact ⟨_, .bare text⟩
    · obtain ⟨name, text⟩ := Node.isScalar_iff.mp named
      exact ⟨_, .empty text⟩
    · obtain ⟨name, text⟩ := Node.isScalar_iff.mp named
      obtain ⟨found, gives⟩ := Node.exists_gives_iff.mpr keys
      exact ⟨_, .given text gives (OrderedMap.merges_iff.mpr rfl)⟩
  · rintro ⟨choice, stands⟩
    cases stands with
    | bare text => exact .inl (Node.isScalar_iff.mpr ⟨_, text⟩)
    | empty text => exact .inr ⟨_, _, rfl, Node.isScalar_iff.mpr ⟨_, text⟩, .inl rfl⟩
    | given text gives =>
      exact .inr ⟨_, _, rfl, Node.isScalar_iff.mpr ⟨_, text⟩,
        .inr ⟨_, rfl, Node.exists_gives_iff.mp ⟨_, gives⟩⟩⟩

/-- A node breaks the grammar in some way exactly when it is not of the grammar. -/
theorem exists_breaks_iff : (∃ error, Breaks node error) ↔ ¬Grammatical node := by
  simp only [grammatical_iff, ← ofNode_eq_ok, ← ofNode_eq_error]
  cases ofNode node <;> simp

/-! ## Several choices -/

/-- Nodes are read as the choices that they stand for, one by one. -/
theorem ofNodes_eq_ok {nodes : List Node} {choices : List Choice} :
    ofNodes nodes = .ok choices ↔ List.Forall₂ StandsFor nodes choices := by
  induction nodes generalizing choices with
  | nil => simp [ofNodes, eq_comm]
  | cons node rest ih =>
    simp only [ofNodes, bind_eq_ok, pure, Except.pure, Except.ok.injEq, List.forall₂_cons_left_iff,
      ih, ofNode_eq_ok]
    constructor
    · rintro ⟨choice, own, others, later, rfl⟩
      exact ⟨choice, others, own, later, rfl⟩
    · rintro ⟨choice, others, own, later, rfl⟩
      exact ⟨choice, own, others, later, rfl⟩

/-- Reading nodes fails at the first one that breaks the grammar. -/
theorem ofNodes_eq_error {nodes : List Node} :
    ofNodes nodes = .error error ↔ FirstWith Breaks nodes error := by
  induction nodes with
  | nil => simp [ofNodes, FirstWith.nil_iff]
  | cons node rest ih =>
    simp only [FirstWith.cons_iff, ← ih, ← ofNode_eq_error, ofNodes]
    cases ofNode node with
    | error own => simp [bind, Except.bind]
    | ok choice => cases ofNodes rest <;> simp [bind, Except.bind, pure, Except.pure]

/-- The choices of a node are those of its items. -/
theorem listOfNode_eq (node : Node) : listOfNode node = ofNodes (items node) := by
  cases node with
  | sequence items => rfl
  | _ =>
    simp only [listOfNode, items, ofNodes]
    generalize ofNode _ = read
    cases read <;> rfl

/-- Choices are read by their grammar. A node is read exactly when each of its items is of the
grammar, and then as one choice for each item, in order. Otherwise the first item that breaks the
grammar gives the error, by the way in which it does; an item that is not of the grammar breaks it
in some way, and no other item does. -/
theorem listOfNode_by_grammar (node : Node) :
    ((∃ choices, listOfNode node = .ok choices) ↔ ∀ item ∈ items node, Grammatical item) ∧
      (∀ choices, listOfNode node = .ok choices ↔
        List.Forall₂ StandsFor (items node) choices) ∧
      (∀ failure, (listOfNode node).mapError (fun cause => Error.decode (.choice cause)) =
          .error failure ↔
        ∃ cause, failure = .decode (.choice cause) ∧ FirstWith Breaks (items node) cause) ∧
      ∀ item, (∃ cause, Breaks item cause) ↔ ¬Grammatical item := by
  rw [listOfNode_eq]
  refine ⟨?_, fun _ => ofNodes_eq_ok, fun failure => ?_, fun _ => exists_breaks_iff⟩
  · have fails : (∃ error, ofNodes (items node) = .error error) ↔
        ∃ item ∈ items node, ¬Grammatical item := by
      simp only [ofNodes_eq_error, FirstWith.exists_iff, exists_breaks_iff]
    have succeeds : (∃ choices, ofNodes (items node) = .ok choices) ↔
        ¬∃ error, ofNodes (items node) = .error error := by
      cases ofNodes (items node) <;> simp
    rw [succeeds, fails]
    simp only [not_exists, not_and, not_not]
  · simp only [← ofNodes_eq_error]
    cases ofNodes (items node) <;> simp [Except.mapError, eq_comm]

/-- A scalar, a name with parameters of which two have one text, and a name with nothing. -/
example : listOfNode (.sequence [.bool true,
      .mapping [(.string "paged", .mapping [(.number (.int 1), .string "a"), (.string "b", .null),
        (.string "1", .string "c")])],
      .mapping [(.number (.int 7), .null)]]) =
    .ok [.bare "true", .parameterized "paged" (.ofList [("1", .string "c"), ("b", .null)]),
      .parameterized "7" .empty] := by
  decide +kernel

end Raml.Choice
