/-!
# Natural numbers in positional notation

The digits of a base beyond ten go on with the letters, in either case.
-/
namespace Raml.Text

/-- The value of a digit in a base. -/
def digit? (base : Nat) (char : Char) : Option Nat :=
  let code := char.toNat
  let value :=
    if 48 ≤ code && code ≤ 57 then code - 48
    else if 65 ≤ code && code ≤ 90 then code - 55
    else if 97 ≤ code && code ≤ 122 then code - 87
    else base
  if value < base then some value else none

/-- The value of at least one digit in a base. -/
def natural? (base : Nat) (digits : List Char) : Option Nat :=
  if digits.isEmpty then none
  else digits.foldlM (fun value char => (digit? base char).map (base * value + ·)) 0

end Raml.Text
