import Raml.Number

/-!
# Numbers in JSON text

The digits of a number are gathered into a significand of 64 bits. Digits that no longer fit are
counted in the exponent before the point, and dropped after it. A number without point and exponent
whose digits fit is an integer, when 64 bits hold it with its sign and it is no negative zero. Any
other number is the significand, rounded once, times or divided by a power of ten, rounded again; a
number too large is refused.
-/
namespace Raml.JsonNumber

/-- The greatest significand. -/
def greatest : Nat := 18446744073709551615

/-- Append digits to a significand while it stays within bounds; the digits left over follow. -/
def gather (significand : Nat) : List Char → Nat × List Char
  | [] => (significand, [])
  | digit :: rest =>
    let next := 10 * significand + (digit.toNat - 48)
    if greatest < next then (significand, digit :: rest) else gather next rest

/-- The power of ten nearest to `10 ^ power`. -/
def powerOfTen (power : Nat) : Binary64 := .ofDecimal false 1 power

/-- Divide by a power of ten in steps that a power of ten can take. -/
def divideBy (value : Binary64) (power : Nat) : Binary64 :=
  if power ≤ 308 then value.div (powerOfTen power)
  else if value.isZero then value
  else divideBy (value.div (powerOfTen 308)) (power - 308)
termination_by power
decreasing_by omega

/-- Multiply by a power of ten; a result too large is refused. -/
def multiplyBy? (value : Binary64) (power : Nat) : Option Binary64 :=
  if power ≤ 308 then
    let product := value.mul (powerOfTen power)
    if product.isFinite then some product else none
  else if value.isZero then some value
  else none

/-- A significand times a power of ten. -/
def scaled? (significand : Nat) : Int → Option Binary64
  | .ofNat power => multiplyBy? (.ofInt significand) power
  | .negSucc power => some (divideBy (.ofInt significand) (power + 1))

/-- The parts of a number as it is written. -/
structure Parts where
  /-- Whether a minus sign stands in front. -/
  negative : Bool
  /-- The digits before the point. -/
  whole : List Char
  /-- The digits after the point, if there is one. -/
  fraction : Option (List Char)
  /-- The exponent, if there is one. -/
  exponent : Option Int

/-- The digits of an exponent with its sign, at least one. -/
def exponent? (text : List Char) : Option Int := Decimal.exponent? text

/-- The digits before the point: one zero, or digits that start with another digit. -/
def isWhole : List Char → Bool
  | [] => false
  | ['0'] => true
  | first :: rest => first != '0' && (first :: rest).all Char.isDigit

/-- The parts of a written number. -/
def parts? (text : List Char) : Option Parts :=
  let (negative, unsigned) := match text with
    | '-' :: rest => (true, rest)
    | rest => (false, rest)
  let whole := unsigned.takeWhile Char.isDigit
  let rest := unsigned.dropWhile Char.isDigit
  let (fraction, rest) := match rest with
    | '.' :: after => (some (after.takeWhile Char.isDigit), after.dropWhile Char.isDigit)
    | other => (none, other)
  if !isWhole whole || fraction = some [] then none
  else match rest with
    | [] => some ⟨negative, whole, fraction, none⟩
    | mark :: after =>
      if mark = 'e' || mark = 'E' then
        (exponent? after).map fun power => ⟨negative, whole, fraction, some power⟩
      else none

/-- The floating point number of parts. -/
def float? (parts : Parts) : Option Binary64 :=
  let (whole, extra) := gather 0 parts.whole
  let (significand, dropped) := gather whole (parts.fraction.getD [])
  let kept := (parts.fraction.getD []).length - dropped.length
  let exponent : Int := extra.length - kept + parts.exponent.getD 0
  (scaled? significand exponent).map fun value => if parts.negative then value.neg else value

/-- The number of parts. -/
def ofParts? (parts : Parts) : Option Number :=
  let (significand, extra) := gather 0 parts.whole
  let integral := extra.isEmpty && parts.fraction.isNone && parts.exponent.isNone
  if integral && !parts.negative then some (.int significand)
  else if integral && 0 < significand && significand ≤ 9223372036854775808 then
    some (.int (-(significand : Int)))
  else (float? parts).map .float

/-- The number that a text is. -/
def read? (text : List Char) : Option Number := (parts? text).bind ofParts?

end Raml.JsonNumber
