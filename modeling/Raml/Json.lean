import Raml.Entries
import Raml.Number

/-!
# JSON values

A JSON value, its objects being lists of members in order. A member is looked up and changed by its
name through `Entries`.
-/
namespace Raml

/-- A JSON value. -/
inductive JsonValue where
  | null
  | bool (value : Bool)
  | number (value : Number)
  | string (text : String)
  | array (items : List JsonValue)
  | object (members : List (String × JsonValue))
  deriving Inhabited, Repr

namespace JsonValue

mutual

/-- Whether two values are the same. -/
def same : JsonValue → JsonValue → Bool
  | null, null => true
  | bool left, bool right => left == right
  | number left, number right => decide (left = right)
  | string left, string right => decide (left = right)
  | array left, array right => sameItems left right
  | object left, object right => sameMembers left right
  | _, _ => false

/-- Whether two lists of values are the same. -/
def sameItems : List JsonValue → List JsonValue → Bool
  | [], [] => true
  | left :: others, right :: rest => same left right && sameItems others rest
  | _, _ => false

/-- Whether two lists of members are the same. -/
def sameMembers : List (String × JsonValue) → List (String × JsonValue) → Bool
  | [], [] => true
  | (name, left) :: others, (other, right) :: rest =>
    decide (name = other) && same left right && sameMembers others rest
  | _, _ => false

end

mutual

/-- The test finds equal values and no others. -/
theorem same_iff : ∀ {left right : JsonValue}, same left right = true ↔ left = right
  | null, right => by cases right <;> simp [same]
  | bool left, right => by cases right <;> simp [same]
  | number left, right => by cases right <;> simp [same]
  | string left, right => by cases right <;> simp [same]
  | array left, right => by cases right <;> simp [same, sameItems_iff]
  | object left, right => by cases right <;> simp [same, sameMembers_iff]

/-- The test finds equal lists of items and no others. -/
theorem sameItems_iff : ∀ {left right : List JsonValue},
    sameItems left right = true ↔ left = right
  | [], right => by cases right <;> simp [sameItems]
  | item :: others, right => by
    cases right <;> simp [sameItems, @same_iff item, @sameItems_iff others]

/-- The test finds equal lists of members and no others. -/
theorem sameMembers_iff : ∀ {left right : List (String × JsonValue)},
    sameMembers left right = true ↔ left = right
  | [], right => by cases right <;> simp [sameMembers]
  | (name, value) :: others, right => by
    cases right with
    | nil => simp [sameMembers]
    | cons member rest =>
      obtain ⟨other, second⟩ := member
      simp [sameMembers, @same_iff value, @sameMembers_iff others]

end

/-- Values are compared by the test. -/
instance : DecidableEq JsonValue := fun _ _ => decidable_of_iff _ same_iff

/-- The text of a string. -/
def string? : JsonValue → Option String
  | string text => some text
  | _ => none

/-- The value of a boolean. -/
def bool? : JsonValue → Option Bool
  | bool value => some value
  | _ => none

/-- The items of an array. -/
def items? : JsonValue → Option (List JsonValue)
  | array items => some items
  | _ => none

/-- The members of an object. -/
def members? : JsonValue → Option (List (String × JsonValue))
  | object members => some members
  | _ => none

/-- The member of an object under a name. -/
def get? (name : String) : JsonValue → Option JsonValue
  | object members => Entries.get? name members
  | _ => none

mutual

/-- Whether the members of every object in a value have distinct names. -/
def Distinct : JsonValue → Prop
  | array items => DistinctItems items
  | object members => (Entries.keys members).Nodup ∧ DistinctMembers members
  | _ => True

/-- Whether the values of a list have distinct names throughout. -/
def DistinctItems : List JsonValue → Prop
  | [] => True
  | item :: rest => Distinct item ∧ DistinctItems rest

/-- Whether the values of members have distinct names throughout. -/
def DistinctMembers : List (String × JsonValue) → Prop
  | [] => True
  | (_, value) :: rest => Distinct value ∧ DistinctMembers rest

end

end JsonValue

end Raml
