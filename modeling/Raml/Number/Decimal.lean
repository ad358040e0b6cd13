import Raml.Number.Binary64

/-!
# Decimal text of numbers

A finite number is written with the fewest decimal digits that read back as it. Of the numbers with
that many digits that do, the nearest is taken. `FloatLayout` says how the digits are laid out, and
`Decimal.read?` reads a decimal text.
-/
namespace Raml

/-- A positive decimal: the digits `d₁ d₂ …` with the point before the first and moved to the right
by `point`. -/
structure Decimal where
  /-- The digits, read as one natural. -/
  digits : Nat
  /-- How far the point stands to the right of the front. -/
  point : Int
  deriving DecidableEq, Repr

namespace Decimal

/-- `significand * 10 ^ exponent` as a ratio of naturals. -/
def ratio (significand : Nat) (exponent : Int) : Nat × Nat :=
  match exponent with
  | .ofNat power => (significand * Nat.pow 10 power, 1)
  | .negSucc power => (significand, Nat.pow 10 (power + 1))

/-- A quarter of a unit, in which the ends of a rounding interval are whole. -/
def quarters : Nat := 4 * Binary64.one

/-- The quarters that round to a number, ends included only for an even significand. -/
structure Interval where
  /-- The lower end. -/
  lower : Nat
  /-- The upper end. -/
  upper : Nat
  /-- Whether the ends belong to it. -/
  closed : Bool

/-- The rounding interval of a positive finite number. -/
def interval (number : Binary64) : Interval :=
  let step := Nat.pow 2 number.scale
  let below := if number.significand = Binary64.fractions ∧ 0 < number.scale then step else 2 * step
  ⟨4 * number.units - below, 4 * number.units + 2 * step, number.significand % 2 = 0⟩

/-- Whether a ratio lies in an interval of quarters. -/
def Interval.contains (interval : Interval) (ratio : Nat × Nat) : Bool :=
  let value := ratio.1 * quarters
  let lower := interval.lower * ratio.2
  let upper := interval.upper * ratio.2
  if interval.closed then lower ≤ value && value ≤ upper else lower < value && value < upper

/-- The position of the point of a positive finite number: the least `k` with the number below
`10 ^ k`. -/
def position (number : Binary64) : Int :=
  let value := 4 * number.units
  let binary : Int := value.log2 - 1076
  let guess := binary * 30103 / 100000
  let above (k : Int) : Bool := value * (ratio 1 k).2 < (ratio 1 k).1 * quarters
  ([guess - 1, guess, guess + 1, guess + 2].find? above).getD (guess + 3)

/-- Which of two neighbours that are equally near is taken. -/
inductive Tie where
  /-- The one with an even last digit. -/
  | even
  /-- The greater one. -/
  | up

/-- Whether of a natural and the next one the next one is taken. -/
def Tie.isUp (tie : Tie) (low : Nat) : Bool :=
  match tie with
  | even => low % 2 = 1
  | up => true

/-- The nearer neighbour of a number on the grid of a given number of digits, of those in its
rounding interval. -/
def onGrid? (tie : Tie) (number : Binary64) (point : Int) (count : Nat) : Option Decimal :=
  let exponent := point - count
  let value := 4 * number.units
  let unit := ratio 1 exponent
  let low := value * unit.2 / (quarters * unit.1)
  let interval := interval number
  let accepted (candidate : Nat) : Bool := interval.contains (ratio candidate exponent)
  let fit (candidate : Nat) : Decimal :=
    if candidate = Nat.pow 10 count then ⟨1, point + 1⟩ else ⟨candidate, point⟩
  let step := quarters * unit.1
  let remainder := value * unit.2 % step
  let up := step < 2 * remainder || (2 * remainder = step && tie.isUp low)
  match accepted low, accepted (low + 1) with
  | true, true => some (fit (if up then low + 1 else low))
  | true, false => some (fit low)
  | false, true => some (fit (low + 1))
  | false, false => none

/-- The shortest decimal of a positive finite number; seventeen digits always suffice. -/
def shortest (tie : Tie) (number : Binary64) : Decimal :=
  let point := position number
  ((List.range 17).findSome? fun count => onGrid? tie number point (count + 1)).getD ⟨0, point⟩

end Decimal

/-- How the decimal digits of a number are laid out as text. -/
structure FloatLayout where
  /-- The positions of the point at which the number is written without exponent. -/
  positional : Int → Bool
  /-- The sign of an exponent that is not negative. -/
  exponentSign : String
  /-- The text of the value that is no number. -/
  nan : String
  /-- The text of the positive infinity. -/
  infinity : String
  /-- Which of two nearest decimals is written. -/
  tie : Decimal.Tie

namespace FloatLayout

/-- A run of zeros. -/
def zeros (count : Nat) : String := String.ofList (List.replicate count '0')

/-- Digits with the point among them and a digit on each side of it. -/
def positionalText (digits : List Char) (point : Int) : String :=
  match point with
  | .ofNat place =>
    if place = 0 then "0." ++ String.ofList digits
    else if place < digits.length then
      String.ofList (digits.take place) ++ "." ++ String.ofList (digits.drop place)
    else String.ofList digits ++ zeros (place - digits.length) ++ ".0"
  | .negSucc below => "0." ++ zeros (below + 1) ++ String.ofList digits

/-- Digits with the point after the first one and an exponent. -/
def exponentText (layout : FloatLayout) (digits : List Char) (point : Int) : String :=
  let fraction := match digits.drop 1 with
    | [] => ""
    | rest => "." ++ String.ofList rest
  let sign := if 0 < point then layout.exponentSign else ""
  String.ofList (digits.take 1) ++ fraction ++ "e" ++ sign ++ toString (point - 1)

/-- The text of a number. -/
def text (layout : FloatLayout) (number : Binary64) : String :=
  if number.isNaN then layout.nan
  else
    let sign := if number.negative then "-" else ""
    if !number.isFinite then sign ++ layout.infinity
    else if number.isZero then sign ++ "0.0"
    else
      let decimal := Decimal.shortest layout.tie number
      let digits := (toString decimal.digits).toList
      sign ++ if layout.positional decimal.point then positionalText digits decimal.point
        else layout.exponentText digits decimal.point

end FloatLayout

namespace Decimal

/-- The value of a text of decimal digits, read after a number. -/
def appendDigits (start : Nat) (digits : List Char) : Nat :=
  digits.foldl (fun value digit => 10 * value + (digit.toNat - 48)) start

/-- The value of a text of decimal digits. -/
def digitsValue (digits : List Char) : Nat := appendDigits 0 digits

/-- An exponent: a sign and at least one digit. -/
def exponent? (text : List Char) : Option Int :=
  let (negative, digits) := match text with
    | '-' :: rest => (true, rest)
    | '+' :: rest => (false, rest)
    | rest => (false, rest)
  if digits.isEmpty || !digits.all Char.isDigit then none
  else some (if negative then -(digitsValue digits : Int) else digitsValue digits)

/-- Read an unsigned decimal: digits with at most one point, at least one digit in all, and an
optional exponent. -/
def readUnsigned? (negative : Bool) (text : List Char) : Option Binary64 :=
  let whole := text.takeWhile Char.isDigit
  let rest := text.dropWhile Char.isDigit
  let (fraction, rest) := match rest with
    | '.' :: after => (after.takeWhile Char.isDigit, after.dropWhile Char.isDigit)
    | other => ([], other)
  if whole.isEmpty && fraction.isEmpty then none
  else
    let exponent := match rest with
      | [] => some 0
      | mark :: after => if mark = 'e' || mark = 'E' then exponent? after else none
    exponent.map fun power =>
      Binary64.ofDecimal negative (digitsValue (whole ++ fraction)) (power - fraction.length)

/-- Read a decimal with an optional sign. -/
def read? (text : List Char) : Option Binary64 :=
  match text with
  | '-' :: rest => readUnsigned? true rest
  | '+' :: rest => readUnsigned? false rest
  | rest => readUnsigned? false rest

end Decimal

end Raml
