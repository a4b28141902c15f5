import ScriptMinifier.Number.Binary

/-!
# A set number of decimal places

The exact value of a number is rounded to the nearest decimal with so many
places, a half to the even neighbour.
-/

namespace ScriptMinifier.Number

/-- The nearest whole number to `num / den`, a half to the even neighbour. -/
def roundDiv (num den : Nat) : Nat :=
  let floor := num / den
  let double := 2 * (num % den)
  if double < den then floor
  else if den < double then floor + 1
  else floor + floor % 2

/-- Puts `places` decimal places behind a point, with at least one digit in
front of it. -/
def withPlaces (places n : Nat) : List Char :=
  let digits := Nat.toDigits 10 n
  let padded := List.replicate (places + 1 - digits.length) '0' ++ digits
  padded.take (padded.length - places) ++
    '.' :: padded.drop (padded.length - places)

def fixed (places : Nat) (x : Float) : List Char :=
  let b := Binary.ofFloat x
  b.sign ++
    withPlaces places (roundDiv (b.numerator * tenTo places) b.denominator)

end ScriptMinifier.Number
