import Raml.Json.Parser
import Raml.Proofs.OrderedMap

/-!
# Laws of JSON values

What a lookup finds among the members of an object after a removal that moves the last member, and
that a value read from a text names the members of each of its objects apart.
-/
namespace Raml

universe u v

namespace Entries

variable {κ : Type u} {α : Type v} [DecidableEq κ]

/-- Whichever entry moves up, a removal leaves the same entries. -/
theorem swapErase_perm (key : κ) (entries : List (κ × α)) :
    (swapErase key entries).Perm (erase key entries) := by
  induction entries with
  | nil => exact .refl _
  | cons entry rest ih =>
    obtain ⟨name, value⟩ := entry
    by_cases here : name = key
    · simp only [swapErase, erase, here, ↓reduceIte]
      rcases List.eq_nil_or_concat rest with rfl | ⟨before, last, rfl⟩
      · simp
      · simpa using (List.perm_append_singleton last before).symm
    · simpa only [swapErase, erase, here, ↓reduceIte] using ih.cons (name, value)

/-- A removal that moves the last entry keeps keys distinct. -/
theorem nodup_swapErase {key : κ} {entries : List (κ × α)} (distinct : (keys entries).Nodup) :
    (keys (swapErase key entries)).Nodup :=
  ((swapErase_perm key entries).map Prod.fst).nodup_iff.mpr (nodup_erase distinct)

/-- Entries with distinct keys may be looked up in any order. -/
theorem get?_of_perm {key : κ} {entries others : List (κ × α)} (same : entries.Perm others)
    (distinct : (keys entries).Nodup) : get? key entries = get? key others := by
  have apart : (keys others).Nodup := (same.map Prod.fst).nodup_iff.mp distinct
  cases found : get? key others with
  | none =>
    rw [get?_eq_none] at found ⊢
    exact fun inside => found ((same.map Prod.fst).mem_iff.mp inside)
  | some value => exact get?_of_mem distinct (same.mem_iff.mpr (mem_of_get? found))

/-- What a lookup finds after a removal that moves the last entry. -/
theorem get?_swapErase {key other : κ} {entries : List (κ × α)}
    (distinct : (keys entries).Nodup) :
    get? other (swapErase key entries) = if other = key then none else get? other entries := by
  rw [get?_of_perm (swapErase_perm key entries) (nodup_swapErase distinct), get?_erase distinct]

/-- A key is present exactly when a lookup finds a value. -/
theorem mem_keys_iff {key : κ} {entries : List (κ × α)} :
    key ∈ keys entries ↔ (get? key entries).isSome := by
  rw [← contains_iff, contains]

end Entries

namespace JsonValue

/-- What holds of scalars, of an array when it holds of its items, and of an object when it holds of
the values of its members, holds of every value. -/
@[elab_as_elim]
theorem induction {motive : JsonValue → Prop} (null : motive .null)
    (bool : ∀ flag, motive (.bool flag)) (number : ∀ number, motive (.number number))
    (string : ∀ text, motive (.string text))
    (array : ∀ items, (∀ item ∈ items, motive item) → motive (.array items))
    (object : ∀ members, (∀ member ∈ members, motive member.2) → motive (.object members))
    (value : JsonValue) : motive value :=
  @JsonValue.rec motive (fun items => ∀ item ∈ items, motive item)
    (fun members => ∀ member ∈ members, motive member.2) (fun member => motive member.2)
    null bool number string array object
    (fun _ inside => nomatch inside)
    (fun _ _ first rest => List.forall_mem_cons.mpr ⟨first, rest⟩)
    (fun _ inside => nomatch inside)
    (fun _ _ first rest => List.forall_mem_cons.mpr ⟨first, rest⟩)
    (fun _ _ held => held) value

/-- The items of a list are distinct throughout when each of them is. -/
theorem distinctItems_iff {items : List JsonValue} :
    DistinctItems items ↔ ∀ item ∈ items, item.Distinct := by
  induction items with
  | nil => simp [DistinctItems]
  | cons item rest ih => simp [DistinctItems, ih]

/-- The values of members are distinct throughout when each of them is. -/
theorem distinctMembers_iff {members : List (String × JsonValue)} :
    DistinctMembers members ↔ ∀ member ∈ members, member.2.Distinct := by
  induction members with
  | nil => simp [DistinctMembers]
  | cons member rest ih => simp [DistinctMembers, ih]

/-- What an object with distinct names holds is distinct throughout. -/
theorem Distinct.of_get? {members : List (String × JsonValue)} {name : String} {value : JsonValue}
    (distinct : (object members).Distinct) (found : Entries.get? name members = some value) :
    value.Distinct := by
  rw [Distinct, distinctMembers_iff] at distinct
  exact distinct.2 (name, value) (Entries.mem_of_get? found)

/-- What a value with distinct names holds under a name is distinct throughout. -/
theorem Distinct.get? {value held : JsonValue} {name : String} (distinct : value.Distinct)
    (found : value.get? name = some held) : held.Distinct := by
  cases value with
  | object members => exact distinct.of_get? found
  | _ => contradiction

/-- The items of an array are distinct throughout. -/
theorem Distinct.of_mem {items : List JsonValue} {item : JsonValue}
    (distinct : (array items).Distinct) (inside : item ∈ items) : item.Distinct := by
  rw [Distinct, distinctItems_iff] at distinct
  exact distinct item inside

/-- Members stay distinct throughout when a value that is so is written. -/
theorem distinct_insert {members : List (String × JsonValue)} {name : String} {value : JsonValue}
    (distinct : (object members).Distinct) (new : value.Distinct) :
    (object (Entries.insert name value members)).Distinct := by
  rw [Distinct, distinctMembers_iff] at distinct ⊢
  have apart : (Entries.keys (Entries.insert name value members)).Nodup :=
    Entries.nodup_insert distinct.1
  refine ⟨apart, fun member inside => ?_⟩
  obtain ⟨key, held⟩ := member
  have found := Entries.get?_of_mem apart inside
  rw [Entries.get?_insert] at found
  split at found
  · cases found
    exact new
  · exact distinct.2 (key, held) (Entries.mem_of_get? found)

end JsonValue

namespace JsonToken

/-- Whether the value of a token, if it has one, is distinct throughout. -/
def Distinct : JsonToken → Prop
  | scalar value => value.Distinct
  | _ => True

/-- A mark holds no value. -/
theorem distinct_of_mark? {char : Char} {token : JsonToken} (found : mark? char = some token) :
    token.Distinct := by
  unfold mark? at found
  repeat' split at found
  all_goals cases found <;> trivial

/-- The value of a word has no members. -/
theorem distinct_of_word? {letters : List Char} {value : JsonValue}
    (found : word? letters = some value) : value.Distinct := by
  unfold word? at found
  repeat' split at found
  all_goals cases found <;> trivial

/-- The scalars of a text have no members. -/
theorem distinct_of_scan? {text : List Char} {tokens : List JsonToken}
    (found : scan? text = some tokens) : ∀ token ∈ tokens, token.Distinct := by
  fun_induction scan? text generalizing tokens with
  | case1 => cases found; simp
  | case2 _ _ _ ih => exact ih found
  | case3 _ _ _ mark marked ih =>
    obtain ⟨rest, read, rfl⟩ := Option.map_eq_some_iff.mp found
    exact List.forall_mem_cons.mpr ⟨distinct_of_mark? marked, ih read⟩
  | case4 => contradiction
  | case5 _ _ _ _ _ _ _ ih =>
    obtain ⟨rest, read, rfl⟩ := Option.map_eq_some_iff.mp found
    exact List.forall_mem_cons.mpr ⟨trivial, ih read⟩
  | case6 => contradiction
  | case7 _ _ _ _ _ _ _ _ ih =>
    obtain ⟨rest, read, rfl⟩ := Option.map_eq_some_iff.mp found
    exact List.forall_mem_cons.mpr ⟨trivial, ih read⟩
  | case8 => contradiction
  | case9 _ _ _ _ _ _ _ word ih =>
    obtain ⟨rest, read, rfl⟩ := Option.map_eq_some_iff.mp found
    exact List.forall_mem_cons.mpr ⟨distinct_of_word? word, ih read⟩

end JsonToken

namespace JsonReading

/-- Whether what an open container holds so far is distinct throughout. -/
def Open.Distinct : Open → Prop
  | array items => (JsonValue.array items).Distinct
  | object members _ => (JsonValue.object members).Distinct

/-- Whether what may follow carries only values that are distinct throughout. -/
def Follow.Distinct : Follow → Prop
  | name members => (JsonValue.object members).Distinct
  | separator held => held.Distinct
  | _ => True

/-- Whether every value of a state is distinct throughout. -/
structure State.Distinct (state : State) : Prop where
  /-- The open containers. -/
  stack : ∀ container ∈ state.stack, container.Distinct
  /-- What may follow. -/
  follow : state.follow.Distinct

/-- A container stays distinct throughout when a value that is so is added. -/
theorem Open.Distinct.add {container : Open} {value : JsonValue} (distinct : container.Distinct)
    (new : value.Distinct) : (container.add value).Distinct := by
  cases container with
  | array items => exact ⟨new, distinct⟩
  | object members name => exact JsonValue.distinct_insert distinct new

/-- A value starts in a state that is distinct throughout. -/
theorem distinct_of_startValue? {stack : List Open} {token : JsonToken} {state : State}
    (distinct : ∀ container ∈ stack, container.Distinct) (new : token.Distinct)
    (found : startValue? stack token = some state) : state.Distinct := by
  unfold startValue? at found
  split at found
  · split at found <;> cases found
    exact ⟨List.forall_mem_cons.mpr ⟨trivial, distinct⟩, trivial⟩
  · split at found <;> cases found
    exact ⟨List.forall_mem_cons.mpr ⟨⟨List.nodup_nil, trivial⟩, distinct⟩, trivial⟩
  · cases found
    exact ⟨distinct, trivial⟩
  · cases found
    exact ⟨distinct, new⟩
  · contradiction

/-- A token keeps a state distinct throughout. -/
theorem State.Distinct.next? {state after : State} {token : JsonToken}
    (distinct : state.Distinct) (new : token.Distinct)
    (found : state.next? token = some after) : after.Distinct := by
  obtain ⟨opened, carried⟩ := distinct
  unfold State.next? at found
  split at found
  · rename_i stacked
    rw [stacked, List.forall_mem_cons] at opened
    cases found
    exact ⟨opened.2, trivial⟩
  · exact distinct_of_startValue? opened new found
  · exact distinct_of_startValue? opened new found
  · rename_i stacked
    rw [stacked, List.forall_mem_cons] at opened
    cases found
    exact ⟨opened.2, List.nodup_nil, trivial⟩
  · rename_i stacked
    rw [stacked, List.forall_mem_cons] at opened
    cases found
    exact ⟨List.forall_mem_cons.mpr opened, trivial⟩
  · rename_i following stacked
    rw [stacked, List.forall_mem_cons] at opened
    rw [following] at carried
    cases found
    exact ⟨List.forall_mem_cons.mpr ⟨carried, opened.2⟩, trivial⟩
  · cases found
    exact ⟨opened, trivial⟩
  · rename_i following stacked
    rw [stacked, List.forall_mem_cons] at opened
    rw [following] at carried
    have added := opened.1.add carried
    split at found <;> rename_i grown <;> rw [grown] at added <;> cases found
    · exact ⟨List.forall_mem_cons.mpr ⟨added, opened.2⟩, trivial⟩
    · exact ⟨List.forall_mem_cons.mpr ⟨added, opened.2⟩, added⟩
  · rename_i following stacked
    rw [stacked, List.forall_mem_cons] at opened
    rw [following] at carried
    cases found
    refine ⟨opened.2, JsonValue.distinctItems_iff.mpr fun item inside => ?_⟩
    rcases List.mem_cons.mp (List.mem_reverse.mp inside) with same | earlier
    · exact same ▸ carried
    · exact JsonValue.Distinct.of_mem opened.1 earlier
  · rename_i following stacked
    rw [stacked, List.forall_mem_cons] at opened
    rw [following] at carried
    cases found
    exact ⟨opened.2, JsonValue.distinct_insert opened.1 carried⟩
  · contradiction

/-- Tokens keep a state distinct throughout. -/
theorem State.Distinct.run? {tokens : List JsonToken} {state after : State}
    (distinct : state.Distinct) (new : ∀ token ∈ tokens, token.Distinct)
    (found : state.run? tokens = some after) : after.Distinct := by
  induction tokens generalizing state with
  | nil =>
    cases found
    exact distinct
  | cons token rest ih =>
    rw [List.forall_mem_cons] at new
    obtain ⟨next, step, run⟩ := Option.bind_eq_some_iff.mp found
    exact ih (distinct.next? new.1 step) new.2 run

/-- The value of a state that is distinct throughout is so too. -/
theorem State.Distinct.value? {state : State} {value : JsonValue} (distinct : state.Distinct)
    (found : state.value? = some value) : value.Distinct := by
  unfold State.value? at found
  split at found
  · cases found
    exact distinct.follow
  · contradiction

end JsonReading

/-- A value that is read from a text has only objects with distinct names. -/
theorem JsonValue.distinct_of_ofText? {text : String} {value : JsonValue}
    (read : ofText? text = some value) : value.Distinct := by
  obtain ⟨tokens, scanned, rest⟩ := Option.bind_eq_some_iff.mp read
  obtain ⟨state, run, found⟩ := Option.bind_eq_some_iff.mp rest
  have start : (JsonReading.State.mk [] .value).Distinct := ⟨by simp, trivial⟩
  exact (start.run? (JsonToken.distinct_of_scan? scanned) run).value? found

end Raml
