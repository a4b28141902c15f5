import ScriptMinifier.Number.Binary

/-!
# The fewest digits that read back

A floating-point number stands for all reals that round to it. Among the
decimals in that interval one with the fewest digits is chosen, and among those
the nearest. The search runs over grids of one digit, two digits and so on; on
each grid only the two neighbours of the number can be in the interval first.
-/

namespace ScriptMinifier.Number

structure Decimal where
  digits : Nat
  exponent : Int
  deriving Repr, DecidableEq

/-- The interval of the reals that round to a number, as multiples of `1 /
denominator`. -/
structure RoundingInterval where
  low : Nat
  value : Nat
  high : Nat
  denominator : Nat
  closed : Bool

/-- The ends lie half way to the two neighbours. Below a power of two the
neighbours are twice as close. They belong to the interval when the significand
is even. -/
def Binary.interval (b : Binary) : RoundingInterval :=
  let below := if b.significand = twoTo 52 ∧ -1074 < b.exponent then 1 else 2
  let scale := twoTo (b.exponent - 2).toNat
  { low := (4 * b.significand - below) * scale
    value := 4 * b.significand * scale
    high := (4 * b.significand + 2) * scale
    denominator := twoTo (2 - b.exponent).toNat
    closed := b.significand % 2 = 0 }

def RoundingInterval.contains (i : RoundingInterval) (d : Decimal) : Bool :=
  let point := d.digits * tenTo d.exponent.toNat * i.denominator
  let scale := tenTo (-d.exponent).toNat
  if i.closed then i.low * scale ≤ point && point ≤ i.high * scale
  else i.low * scale < point && point < i.high * scale

/-- The exponent of ten of the leading digit. -/
def RoundingInterval.magnitude (i : RoundingInterval) : Int :=
  (Nat.toDigits 10 (i.value * tenTo 400 / i.denominator)).length - 401

/-- The nearest decimal of the interval on the grid of `10 ^ exponent`. Of two
that are equally near the even one is taken. -/
def RoundingInterval.onGrid? (i : RoundingInterval) (exponent : Int) :
    Option Decimal :=
  let num := i.value * tenTo (-exponent).toNat
  let den := i.denominator * tenTo exponent.toNat
  let below : Decimal := ⟨num / den, exponent⟩
  let above : Decimal := ⟨num / den + 1, exponent⟩
  let double := 2 * (num % den)
  let roundsDown := double < den || double = den && below.digits % 2 = 0
  (if roundsDown then [below, above] else [above, below]).find? i.contains

def Decimal.normalize (d : Decimal) : Decimal :=
  let digits := (Nat.toDigits 10 d.digits).reverse
  let zeros := (digits.takeWhile (· == '0')).length
  ⟨d.digits / tenTo zeros, d.exponent + zeros⟩

def Binary.shortest (b : Binary) : Decimal :=
  let i := b.interval
  let grids := (List.range 17).map fun n : Nat => i.magnitude - n
  ((grids.findSome? i.onGrid?).getD ⟨i.value / i.denominator, 0⟩).normalize

end ScriptMinifier.Number
