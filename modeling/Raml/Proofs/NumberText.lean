import Mathlib.Data.List.Basic
import Raml.Number
import Raml.Proofs.ShortestDecimal

/-!
# The text of a number

The text of a number determines its value. An integer is read back from its text. The text of a
floating point number is a word, or a decimal with a point or an exponent behind its sign; a decimal
is read in one way only, and its value is that of the shortest decimal, which determines the number.
No integer has a point or an exponent, so the text tells the kinds of numbers apart too.
-/
namespace Raml

namespace Decimal

variable {text : List Char} {value other : ℚ} {pointed : Bool} {mark : Char}

/-- The value of digits is that of their list. -/
theorem appendDigits_eq (start : Nat) (digits : List Char) :
    appendDigits start digits = Nat.ofDigitChars 10 digits start := by
  rw [Nat.ofDigitChars_eq_foldl]
  rfl

/-- Digits have the value that they are made from. -/
theorem digitsValue_toDigits (natural : Nat) :
    digitsValue (Nat.toDigits 10 natural) = natural := by
  rw [digitsValue, appendDigits_eq, Nat.ofDigitChars_ten_toDigits]

/-- Leading zeros do not count. -/
theorem digitsValue_zeros (count : Nat) (digits : List Char) :
    digitsValue (List.replicate count '0' ++ digits) = digitsValue digits := by
  simp only [digitsValue, appendDigits_eq, Nat.ofDigitChars_append,
    Nat.ofDigitChars_replicate_zero, Nat.mul_zero]

/-- Each zero at the end counts ten times. -/
theorem digitsValue_append_zeros (digits : List Char) (count : Nat) :
    digitsValue (digits ++ List.replicate count '0') = 10 ^ count * digitsValue digits := by
  simp only [digitsValue, appendDigits_eq, Nat.ofDigitChars_append,
    Nat.ofDigitChars_replicate_zero]

/-- A text of digits, not empty. -/
structure AreDigits (text : List Char) : Prop where
  /-- There is a digit. -/
  some : text ≠ []
  /-- There is nothing else. -/
  all : ∀ character ∈ text, character.isDigit = true

/-- The digits of a natural. -/
theorem areDigits_toDigits (natural : Nat) : AreDigits (Nat.toDigits 10 natural) :=
  ⟨Nat.toDigits_ne_nil, fun _ => Nat.isDigit_of_mem_toDigits (by decide) (by decide)⟩

/-- A zero is a digit. -/
theorem areDigits_zero : AreDigits ['0'] := Nat.toDigits_zero 10 ▸ areDigits_toDigits 0

/-- Digits have a digit in front. -/
theorem AreDigits.front (digits : AreDigits text) :
    ∃ first rest, text = first :: rest ∧ first.isDigit = true := by
  obtain ⟨first, rest, rfl⟩ := List.exists_cons_of_ne_nil digits.some
  exact ⟨first, rest, rfl, digits.all first List.mem_cons_self⟩

/-- A mark that is no digit does not stand among digits. -/
theorem AreDigits.not_mem (digits : AreDigits text) (unlike : mark.isDigit = false) :
    mark ∉ text := fun inside => by
  rw [digits.all mark inside] at unlike
  cases unlike

/-! ## Integers -/

/-- Digits are read as an exponent. -/
theorem exponent?_digits (digits : AreDigits text) :
    exponent? text = some (digitsValue text : Int) := by
  have all : text.all Char.isDigit = true := List.all_eq_true.mpr digits.all
  obtain ⟨first, rest, rfl, digit⟩ := digits.front
  have plus : first ≠ '+' := by
    rintro rfl
    exact absurd digit (by decide)
  have minus : first ≠ '-' := by
    rintro rfl
    exact absurd digit (by decide)
  simp [exponent?, plus, minus, List.all_cons ▸ all]

/-- Digits behind the sign are read as a negative exponent. -/
theorem exponent?_negative (digits : AreDigits text) :
    exponent? ('-' :: text) = some (-(digitsValue text : Int)) := by
  have all : text.all Char.isDigit = true := List.all_eq_true.mpr digits.all
  have nonempty : text.isEmpty = false := List.isEmpty_eq_false_iff.mpr digits.some
  simp [exponent?, all, nonempty]

/-- The text of an integer: its digits, behind the sign when it is negative. -/
theorem toList_toString (value : Int) : (toString value).toList =
    if 0 ≤ value then Nat.toDigits 10 value.toNat else '-' :: Nat.toDigits 10 (-value).toNat := by
  rw [Int.toString_eq_repr, Int.repr_eq_if]
  split
  · exact Nat.toList_repr
  · rw [String.toList_append, Nat.toList_repr]
    rfl

/-- The text of an integer is read back as an exponent. -/
theorem exponent?_toString (value : Int) : exponent? (toString value).toList = some value := by
  rw [toList_toString]
  split
  · rw [exponent?_digits (areDigits_toDigits _), digitsValue_toDigits]
    congr 1
    omega
  · rw [exponent?_negative (areDigits_toDigits _), digitsValue_toDigits]
    congr 1
    omega

/-- Integers with the same text are equal. -/
theorem eq_of_toString {first second : Int}
    (same : (toString first).toList = (toString second).toList) : first = second := by
  have read : some first = some second := by
    rw [← exponent?_toString first, same, exponent?_toString second]
  exact Option.some.inj read

/-- In the text of an integer there are only digits and the sign. -/
theorem not_mem_toString (value : Int) (unlike : mark.isDigit = false) (unsigned : mark ≠ '-') :
    mark ∉ (toString value).toList := by
  rw [toList_toString]
  split
  · exact (areDigits_toDigits _).not_mem unlike
  · rw [List.mem_cons, not_or]
    exact ⟨unsigned, (areDigits_toDigits _).not_mem unlike⟩

/-! ## Decimals -/

/-- Digits, with a point among them or without, and the value that they are read as. -/
inductive Mantissa : Bool → List Char → ℚ → Prop where
  | whole {digits : List Char} (all : AreDigits digits) :
    Mantissa false digits (digitsValue digits)
  | point {before after : List Char} (whole : AreDigits before) (fraction : AreDigits after) :
    Mantissa true (before ++ '.' :: after)
      (digitsValue (before ++ after) * 10 ^ (-(after.length : Int)))

/-- A text that stands for a value: digits with a point among them, with an exponent after them, or
both. -/
inductive Written : List Char → ℚ → Prop where
  | plain {mantissa : List Char} {value : ℚ} (digits : Mantissa true mantissa value) :
    Written mantissa value
  | scaled {pointed : Bool} {mantissa : List Char} {value : ℚ}
    (digits : Mantissa pointed mantissa value) (power : Int) :
    Written (mantissa ++ 'e' :: (toString power).toList) (value * 10 ^ power)

/-- A mantissa has a digit in front, and no mark but the point. -/
theorem Mantissa.front (digits : Mantissa pointed text value) :
    (∃ first rest, text = first :: rest ∧ first.isDigit = true) ∧ 'e' ∉ text := by
  have letter : 'e'.isDigit = false := by decide
  cases digits with
  | whole all => exact ⟨all.front, all.not_mem letter⟩
  | point whole fraction =>
    refine ⟨?_, by simp [whole.not_mem letter, fraction.not_mem letter]⟩
    obtain ⟨first, rest, rfl, digit⟩ := whole.front
    exact ⟨first, _, rfl, digit⟩

/-- A mantissa is read as one value. -/
theorem Mantissa.unique {also : Bool} (digits : Mantissa pointed text value)
    (again : Mantissa also text other) : value = other := by
  generalize copied : text = copy at again
  cases digits with
  | whole all =>
    cases again with
    | whole _ => rw [copied]
    | point _ _ =>
      subst copied
      exact absurd List.mem_append_cons_self (all.not_mem (by decide))
  | point whole fraction =>
    cases again with
    | whole all =>
      subst copied
      exact absurd List.mem_append_cons_self (all.not_mem (by decide))
    | point _ _ =>
      obtain ⟨rfl, -, rfl⟩ := (List.append_cons_inj_of_notMem
        (whole.not_mem rfl) (fraction.not_mem rfl)).mp copied
      rfl

/-- A text stands for one value. -/
theorem Written.unique (written : Written text value) (again : Written text other) :
    value = other := by
  generalize copied : text = copy at again
  -- A decimal without an exponent has no mark of one, so only decimals of one form can agree.
  cases written with
  | plain digits =>
    cases again with
    | plain others =>
      subst copied
      exact digits.unique others
    | scaled _ _ =>
      subst copied
      exact absurd List.mem_append_cons_self digits.front.2
  | scaled digits power =>
    cases again with
    | plain others =>
      subst copied
      exact absurd List.mem_append_cons_self others.front.2
    | scaled others scale =>
      obtain ⟨rfl, -, tails⟩ := (List.append_cons_inj_of_notMem digits.front.2
        (not_mem_toString power (by decide) (by decide))).mp copied
      rw [digits.unique others, eq_of_toString tails]

/-- A text that stands for a value has a digit in front, and a mark that no integer has. -/
theorem Written.front (written : Written text value) :
    (∃ first rest, text = first :: rest ∧ first.isDigit = true) ∧ ('.' ∈ text ∨ 'e' ∈ text) := by
  cases written with
  | plain digits =>
    refine ⟨digits.front.1, .inl ?_⟩
    cases digits
    exact List.mem_append_cons_self
  | scaled digits _ =>
    obtain ⟨⟨first, rest, rfl, digit⟩, -⟩ := digits.front
    exact ⟨⟨first, _, rfl, digit⟩, .inr List.mem_append_cons_self⟩

/-- No decimal starts with the point. -/
theorem not_written_point {rest : List Char} : ¬Written ('.' :: rest) value := by
  intro written
  obtain ⟨⟨first, _, front, digit⟩, -⟩ := written.front
  obtain rfl := (List.cons.inj front).1
  exact absurd digit (by decide)

/-- Digits with more digits behind them. -/
theorem AreDigits.append {front back : List Char} (some : AreDigits front)
    (more : ∀ character ∈ back, character.isDigit = true) : AreDigits (front ++ back) :=
  ⟨List.append_ne_nil_of_left_ne_nil some.some back,
    fun character inside => (List.mem_append.mp inside).elim (some.all character) (more character)⟩

/-- A run of zeros is made of digits. -/
theorem isDigit_of_mem_zeros (count : Nat) :
    ∀ character ∈ List.replicate count '0', character.isDigit = true := by
  intro character inside
  rw [List.eq_of_mem_replicate inside]
  rfl

/-- A digit after a run of zeros. -/
theorem AreDigits.behind_zeros (digits : AreDigits text) (count : Nat) :
    AreDigits (List.replicate count '0' ++ text) :=
  ⟨List.append_ne_nil_of_right_ne_nil _ digits.some, fun character inside =>
    (List.mem_append.mp inside).elim (isDigit_of_mem_zeros count character) (digits.all character)⟩

/-- Digits with a point among them are written for their value. -/
theorem written_point {before after : List Char} (whole : AreDigits before)
    (fraction : AreDigits after) (shape : text = before ++ '.' :: after)
    (counted : digitsValue (before ++ after) * 10 ^ (-(after.length : Int)) = value) :
    Written text value := by
  subst shape counted
  exact .plain (.point whole fraction)

/-- Digits with an exponent after them are written for their value. -/
theorem written_exponent {mantissa : List Char} (power : Int)
    (digits : Mantissa pointed mantissa other)
    (shape : text = mantissa ++ 'e' :: (toString power).toList)
    (counted : other * 10 ^ power = value) : Written text value := by
  subst shape counted
  exact .scaled digits power

end Decimal

namespace FloatLayout

open Decimal

variable {digits : List Char}

/-- Digits with a point among them stand for the value of their decimal. -/
theorem positionalText_written (all : AreDigits digits) (point : Int) :
    Written (positionalText digits point).toList
      (digitsValue digits * 10 ^ (point - digits.length)) := by
  have leading : "0.".toList = ['0', '.'] := rfl
  cases point with
  | ofNat place =>
    simp only [positionalText]
    split
    · rename_i front
      refine written_point areDigits_zero all (by simp [leading]) ?_
      rw [show ['0'] ++ digits = List.replicate 1 '0' ++ digits from rfl, digitsValue_zeros, front]
      simp
    · rename_i behind
      split
      · rename_i inside
        have whole : AreDigits (digits.take place) :=
          ⟨by simpa [behind] using all.some, fun _ taken => all.all _ (List.mem_of_mem_take taken)⟩
        have fraction : AreDigits (digits.drop place) :=
          ⟨by simpa using inside, fun _ left => all.all _ (List.mem_of_mem_drop left)⟩
        refine written_point whole fraction (by simp) ?_
        rw [List.take_append_drop, List.length_drop, Nat.cast_sub inside.le]
        congr 2
        simp
      · rename_i outside
        obtain ⟨count, rfl⟩ := Nat.exists_eq_add_of_le (not_lt.mp outside)
        rw [Nat.add_sub_cancel_left]
        refine written_point (all.append (isDigit_of_mem_zeros count)) areDigits_zero
          (by simp [zeros, show ".0".toList = ['.', '0'] from rfl]) ?_
        rw [List.append_assoc, show ['0'] = List.replicate 1 '0' from rfl,
          List.replicate_append_replicate, digitsValue_append_zeros]
        have shift : Int.ofNat (digits.length + count) - digits.length = (count : Int) := by simp
        rw [shift, zpow_natCast, List.length_replicate, Nat.cast_one, zpow_neg_one]
        push_cast
        ring
  | negSucc below =>
    simp only [positionalText]
    refine written_point areDigits_zero (all.behind_zeros (below + 1)) (by simp [zeros, leading]) ?_
    rw [show ['0'] ++ (List.replicate (below + 1) '0' ++ digits) =
      List.replicate (below + 2) '0' ++ digits from rfl, digitsValue_zeros]
    congr 2
    rw [List.length_append, List.length_replicate]
    omega

/-- Digits with an exponent after them stand for the value of their decimal. -/
theorem exponentText_written {digits : List Char} (all : AreDigits digits) (point : Int) :
    Written (exponentText Number.documentLayout digits point).toList
      (digitsValue digits * 10 ^ (point - digits.length)) := by
  have ten : (10 : ℚ) ≠ 0 := by norm_num
  have unsigned : (if 0 < point then Number.documentLayout.exponentSign else "") = "" := by
    split <;> rfl
  have mark : "e".toList = ['e'] := rfl
  simp only [exponentText, unsigned]
  obtain ⟨first, rest, rfl⟩ := List.exists_cons_of_ne_nil all.some
  cases rest with
  | nil => exact written_exponent (point - 1) (.whole all) (by simp [mark]) (by simp)
  | cons second more =>
    have whole : AreDigits [first] :=
      ⟨by simp, fun character only => all.all _ (List.mem_of_mem_take (i := 1) only)⟩
    have fraction : AreDigits (second :: more) :=
      ⟨by simp, fun character later => all.all _ (List.mem_cons_of_mem _ later)⟩
    refine written_exponent (point - 1) (.point whole fraction)
      (by simp [mark, show ".".toList = ['.'] from rfl]) ?_
    rw [List.singleton_append, mul_assoc, ← zpow_add₀ ten]
    congr 2
    simp only [List.length_cons]
    omega

/-- The digits of a decimal, laid out, stand for its value. -/
theorem decimal_written (decimal : Decimal) :
    let digits := (toString decimal.digits).toList
    Written (if Number.documentLayout.positional decimal.point then
      positionalText digits decimal.point
      else Number.documentLayout.exponentText digits decimal.point).toList decimal.value := by
  have digits : (toString decimal.digits).toList = Nat.toDigits 10 decimal.digits := by
    rw [Nat.toString_eq_ofList_toDigits, String.toList_ofList]
  have value : decimal.value = digitsValue (Nat.toDigits 10 decimal.digits) *
      10 ^ (decimal.point - (Nat.toDigits 10 decimal.digits).length) := by
    rw [digitsValue_toDigits, Decimal.value]
  simp only [digits, value]
  split
  · exact positionalText_written (areDigits_toDigits _) _
  · exact exponentText_written (areDigits_toDigits _) _

end FloatLayout

/-! ## Floating point numbers -/

namespace Binary64

open Decimal

variable {number left right : Binary64}

/-- The value of the shortest decimal of a number without its sign. -/
def decimalValue (number : Binary64) : ℚ :=
  if number.isZero then 0 else (shortest Number.documentLayout.tie number).value

/-- A number that is no zero has units. -/
theorem units_pos (nonzero : number.isZero = false) : 0 < number.units := by
  refine Nat.mul_pos ?_ (Nat.two_pow_pos _)
  have hidden : 0 < fractions := by decide
  unfold isZero at nonzero
  unfold significand
  split
  · rename_i subnormal
    have some : number.fraction ≠ 0 := by simpa [subnormal] using nonzero
    exact Nat.pos_of_ne_zero fun none => some (Fin.ext none)
  · exact Nat.add_pos_right _ hidden

/-- Finite numbers of one decimal value are zeros or have the same exponent and fraction. -/
theorem fields_of_decimalValue (same : left.decimalValue = right.decimalValue) :
    left.isZero = true ∧ right.isZero = true ∨
      left.exponent = right.exponent ∧ left.fraction = right.fraction := by
  have positive {number : Binary64} (nonzero : number.isZero = false) :
      0 < (shortest Number.documentLayout.tie number).value := by
    have digits : 0 < (shortest Number.documentLayout.tie number).digits :=
      (shortest_rounds (units_pos nonzero)).2
    exact mul_pos (Nat.cast_pos.mpr digits) (by positivity)
  unfold decimalValue at same
  cases first : left.isZero <;> cases second : right.isZero <;>
    simp only [first, second, Bool.false_eq_true, ↓reduceIte] at same
  · exact .inr (fields_of_units
      (units_eq_of_shortest (units_pos first) (units_pos second) same))
  · exact absurd same (positive first).ne'
  · exact absurd same (positive second).ne
  · exact .inl ⟨rfl, rfl⟩

/-- A sign in front of a text. -/
def signText (negative : Bool) : List Char := if negative then ['-'] else []

/-- The sign and the rest of the text of a number in a document: a word, or a decimal of its
value. -/
inductive HasBody (number : Binary64) : Bool → List Char → Prop where
  | nan (invalid : number.isNaN = true) : HasBody number false ".nan".toList
  | infinite (valid : number.isNaN = false) (beyond : number.isFinite = false) :
    HasBody number number.negative ".inf".toList
  | finite {body : List Char} (inside : number.isFinite = true)
    (written : Written body number.decimalValue) : HasBody number number.negative body

/-- The text of a number in a document. -/
theorem exists_hasBody (number : Binary64) : ∃ negative body,
    (Number.documentLayout.text number).toList = signText negative ++ body ∧
      number.HasBody negative body := by
  have sign : (if number.negative then "-" else "").toList = signText number.negative := by
    unfold signText
    split <;> rfl
  unfold FloatLayout.text
  split
  · rename_i invalid
    exact ⟨false, _, rfl, .nan invalid⟩
  · rename_i valid
    rw [Bool.not_eq_true] at valid
    generalize (if number.negative then "-" else "") = mark at sign ⊢
    split
    · rename_i beyond
      rw [Bool.not_eq_true'] at beyond
      exact ⟨_, _, by rw [String.toList_append, sign]; rfl, .infinite valid beyond⟩
    · rename_i inside
      rw [Bool.not_eq_true', Bool.not_eq_false] at inside
      split
      · rename_i zero
        refine ⟨_, "0.0".toList, by rw [String.toList_append, sign], .finite inside ?_⟩
        rw [decimalValue, if_pos zero]
        exact written_point areDigits_zero areDigits_zero rfl (by simp [digitsValue, appendDigits])
      · rename_i nonzero
        refine ⟨_, _, by rw [String.toList_append, sign], .finite inside ?_⟩
        rw [decimalValue, if_neg nonzero]
        exact FloatLayout.decimal_written _

/-- What follows the sign starts with a point or a digit. -/
theorem HasBody.head {negative : Bool} {body : List Char} (has : number.HasBody negative body) :
    ∃ first rest, body = first :: rest ∧ (first = '.' ∨ first.isDigit = true) := by
  cases has with
  | nan _ => exact ⟨_, _, rfl, .inl rfl⟩
  | infinite _ _ => exact ⟨_, _, rfl, .inl rfl⟩
  | finite _ written =>
    obtain ⟨⟨first, rest, rfl, digit⟩, -⟩ := written.front
    exact ⟨first, rest, rfl, .inr digit⟩

/-- The sign and the body are read off a text. -/
theorem HasBody.of_append {negative sign : Bool} {body other : List Char}
    (first : left.HasBody negative body) (second : right.HasBody sign other)
    (same : signText negative ++ body = signText sign ++ other) :
    negative = sign ∧ body = other := by
  obtain ⟨front, _, rfl, unsigned⟩ := first.head
  obtain ⟨start, _, rfl, plain⟩ := second.head
  cases negative <;> cases sign <;> simp [signText] at same ⊢
  · exact same
  · rw [same.1] at unsigned
    exact absurd unsigned (by decide)
  · rw [← same.1] at plain
    exact absurd plain (by decide)
  · exact same

/-- Numbers with the same fields have the same value. -/
theorem sameValue_of_fields (signs : left.negative = right.negative)
    (exponents : left.exponent = right.exponent) (fractions : left.fraction = right.fraction) :
    left.sameValue right = true := by
  obtain rfl : left = right := by
    cases left
    cases right
    simp only at signs exponents fractions
    rw [signs, exponents, fractions]
  simp [sameValue]

/-- Numbers with the same text in documents have the same value. -/
theorem sameValue_of_documentText
    (same : Number.documentLayout.text left = Number.documentLayout.text right) :
    left.sameValue right = true := by
  obtain ⟨negative, body, leftText, first⟩ := exists_hasBody left
  obtain ⟨sign, other, rightText, second⟩ := exists_hasBody right
  obtain ⟨signs, bodies⟩ := first.of_append second (by rw [← leftText, ← rightText, same])
  cases first with
  | nan invalid =>
    cases second with
    | nan also => simp [sameValue, invalid, also]
    | infinite _ _ => exact absurd bodies (by decide)
    | finite _ written => exact absurd (bodies ▸ written) not_written_point
  | infinite valid beyond =>
    cases second with
    | nan _ => exact absurd bodies (by decide)
    | infinite also outside =>
      simp only [isNaN, isFinite, ne_eq, decide_not, Bool.not_eq_false', decide_eq_true_eq,
        Bool.and_eq_false_imp] at valid beyond also outside
      exact sameValue_of_fields signs (beyond.trans outside.symm)
        ((valid beyond).trans (also outside).symm)
    | finite _ written => exact absurd (bodies ▸ written) not_written_point
  | finite inside written =>
    cases second with
    | nan _ => exact absurd (bodies ▸ written) not_written_point
    | infinite _ _ => exact absurd (bodies ▸ written) not_written_point
    | finite _ again =>
      subst bodies
      rcases fields_of_decimalValue (written.unique again) with zeros | fields
      · simp [sameValue, zeros]
      · exact sameValue_of_fields signs fields.1 fields.2

end Binary64

/-! ## Numbers -/

namespace Number

variable {left right : Number}

/-- The text of a floating point number has a mark that no integer has. -/
theorem mem_text_float (value : Binary64) :
    '.' ∈ (float value).text.toList ∨ 'e' ∈ (float value).text.toList := by
  obtain ⟨negative, body, text, has⟩ := value.exists_hasBody
  have whole : (float value).text.toList = Binary64.signText negative ++ body := text
  rw [whole, List.mem_append, List.mem_append]
  cases has with
  | nan _ => exact .inl (.inr (by decide))
  | infinite _ _ => exact .inl (.inr (by decide))
  | finite _ written => exact written.front.2.imp .inr .inr

/-- A number is written with a sign, a point or a digit in front. -/
theorem head_text (number : Number) : ∃ first rest, number.text.toList = first :: rest ∧
    (first = '-' ∨ first = '.' ∨ first.isDigit = true) := by
  cases number with
  | int value =>
    rw [text, render, Decimal.toList_toString]
    split
    · obtain ⟨first, rest, front, digit⟩ := (Decimal.areDigits_toDigits value.toNat).front
      exact ⟨first, rest, front, .inr (.inr digit)⟩
    · exact ⟨_, _, rfl, .inl rfl⟩
  | float value =>
    obtain ⟨negative, body, whole, has⟩ := value.exists_hasBody
    obtain ⟨first, rest, rfl, front⟩ := has.head
    cases negative with
    | true => exact ⟨'-', first :: rest, whole, .inl rfl⟩
    | false => exact ⟨first, rest, whole, .inr front⟩

/-- The text of a number determines its value, and whether it is an integer. -/
theorem sameValue_of_text (same : left.text = right.text) : left.sameValue right = true := by
  have apart (whole : Int) (value : Binary64) : (int whole).text ≠ (float value).text := by
    intro equal
    have marks := mem_text_float value
    rw [← equal] at marks
    exact marks.elim (Decimal.not_mem_toString whole (by decide) (by decide))
      (Decimal.not_mem_toString whole (by decide) (by decide))
  cases left with
  | int first =>
    cases right with
    | int second =>
      have texts : (toString first).toList = (toString second).toList := congrArg String.toList same
      exact decide_eq_true (Decimal.eq_of_toString texts)
    | float value => exact absurd same (apart first value)
  | float value =>
    cases right with
    | int second => exact absurd same.symm (apart second value)
    | float other => exact Binary64.sameValue_of_documentText same

end Number

end Raml
