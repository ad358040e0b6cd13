import Raml.Text.Radix
import Raml.Yaml.Place

/-!
# Tags

A tag is written in full between angle brackets, or as a handle and a suffix. A handle is an
exclamation mark, or a name between two of them; a document may say what its handles stand for.
-/
namespace Raml.Yaml

/-- A tag as it is written. -/
structure WrittenTag where
  /-- The handle, which is empty for a tag that is written in full. -/
  handle : String
  /-- What follows the handle. -/
  suffix : String
  deriving DecidableEq

namespace WrittenTag

/-- Whether a character may stand in a tag; a wide one may hold commas and brackets. -/
def isTagChar (wide : Bool) (char : Char) : Bool :=
  isWord char || ";/?:@&=+$.%!~*'()".toList.contains char || (wide && ",[]".toList.contains char)

/-- The bytes of a text in which a percent sign and two hexadecimal digits stand for a byte. -/
def bytes? : List Char → Option (List UInt8)
  | [] => some []
  | '%' :: high :: low :: rest => do
    let value ← Text.natural? 16 [high, low]
    let bytes ← bytes? rest
    return UInt8.ofNat value :: bytes
  | char :: rest =>
    if char = '%' then none else (bytes? rest).map (UInt8.ofNat char.toNat :: ·)

/-- The text of the bytes of a tag. -/
def decode? (chars : List Char) : Option String :=
  (bytes? chars).bind fun bytes => String.fromUTF8? ⟨bytes.toArray⟩

/-- The part of a tag that a text starts with, and what follows. -/
def part? (wide : Bool) (places : List Place) : Option (String × List Place) :=
  (decode? ((places.takeWhile fun place => isTagChar wide place.char).map Place.char)).map
    fun text => (text, places.dropWhile fun place => isTagChar wide place.char)

/-- A part of a tag that is not empty. -/
def fullPart? (wide : Bool) (places : List Place) : Option (String × List Place) :=
  (part? wide places).filter fun (text, _) => !text.isEmpty

/-- A handle whose first exclamation mark has been read, unless it is that mark alone. -/
def namedHandle? (places : List Place) : Option (String × List Place) :=
  let name := (places.takeWhile fun place => isWord place.char).map Place.char
  match places.dropWhile fun place => isWord place.char with
  | ⟨'!', _, _, _⟩ :: rest => some (String.ofList ('!' :: name ++ ['!']), rest)
  | _ => none

/-- A tag in full whose opening bracket has been read. -/
def verbatim? (places : List Place) : Option (WrittenTag × List Place) :=
  match fullPart? true places with
  | some (text, ⟨'>', _, _, _⟩ :: rest) => some (⟨"", text⟩, rest)
  | _ => none

/-- A tag with a handle whose first exclamation mark has been read. That mark alone is a tag of its
own. -/
def short? (places : List Place) : Option (WrittenTag × List Place) :=
  match namedHandle? places with
  | some (handle, rest) => (fullPart? false rest).map fun (text, after) => (⟨handle, text⟩, after)
  | none => (part? false places).map fun (text, after) =>
    (if text.isEmpty then ⟨"", "!"⟩ else ⟨"!", text⟩, after)

/-- Whether a tag may end here. -/
def endsHere (flow : Bool) (places : List Place) : Bool :=
  atGap places || (flow && (places.head?.map Place.char) = some ',')

/-- Read a tag whose exclamation mark has been read. `flow` says whether it stands between brackets
or braces. -/
def read? (flow : Bool) (places : List Place) : Option (WrittenTag × List Place) :=
  let tag := match places with
    | ⟨'<', _, _, _⟩ :: rest => verbatim? rest
    | other => short? other
  tag.filter fun (_, rest) => endsHere flow rest

/-- The tag that is meant, given what the handles stand for. -/
def resolve? (tag : WrittenTag) (handles : List (String × String)) : Option String :=
  if tag.handle.isEmpty then some tag.suffix
  else (handles.lookup tag.handle).map (· ++ tag.suffix)

/-- What follows a part of a tag is no longer than the text with it. -/
theorem length_of_part? {wide : Bool} {places after : List Place} {text : String}
    (found : part? wide places = some (text, after)) : after.length ≤ places.length := by
  obtain ⟨_, _, same⟩ := Option.map_eq_some_iff.mp found
  cases same
  exact (List.dropWhile_sublist _).length_le

/-- What follows a part of a tag is no longer than the text with it. -/
theorem length_of_fullPart? {wide : Bool} {places after : List Place} {text : String}
    (found : fullPart? wide places = some (text, after)) : after.length ≤ places.length :=
  length_of_part? (Option.filter_eq_some_iff.mp found).1

/-- What follows a handle is no longer than the text with it. -/
theorem length_of_namedHandle? {places after : List Place} {handle : String}
    (found : namedHandle? places = some (handle, after)) : after.length ≤ places.length := by
  have shorter := (List.dropWhile_sublist (fun place : Place => isWord place.char)
    (l := places)).length_le
  simp only [namedHandle?] at found
  split at found
  · rename_i same
    cases found
    simp only [same, List.length_cons] at shorter
    omega
  · contradiction

/-- What follows a tag is no longer than the text with it. -/
theorem length_of_read? {flow : Bool} {places after : List Place} {tag : WrittenTag}
    (found : read? flow places = some (tag, after)) : after.length ≤ places.length := by
  have found := (Option.filter_eq_some_iff.mp found).1
  split at found
  · rename_i rest
    simp only [verbatim?] at found
    split at found
    · rename_i read
      cases found
      have step := length_of_fullPart? read
      simp only [List.length_cons] at step ⊢
      omega
    · contradiction
  · simp only [short?] at found
    split at found
    · rename_i named
      obtain ⟨part, read, same⟩ := Option.map_eq_some_iff.mp found
      cases same
      exact Nat.le_trans (length_of_fullPart? read) (length_of_namedHandle? named)
    · obtain ⟨part, read, same⟩ := Option.map_eq_some_iff.mp found
      cases same
      exact length_of_part? read

end WrittenTag

end Raml.Yaml
