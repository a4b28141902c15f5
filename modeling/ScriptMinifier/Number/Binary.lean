/-!
# Binary fractions

A finite floating-point number is a sign and a fraction `significand * 2 ^
exponent`, which its bits spell out.
-/

namespace ScriptMinifier.Number

def twoTo (n : Nat) : Nat := Nat.pow 2 n

def tenTo (n : Nat) : Nat := Nat.pow 10 n

structure Binary where
  negative : Bool
  significand : Nat
  exponent : Int
  deriving Repr, DecidableEq

/-- The fraction that the bits of a finite number stand for. -/
def Binary.ofBits (bits : Nat) : Binary :=
  let fraction : Nat := bits % twoTo 52
  let biased : Nat := bits / twoTo 52 % twoTo 11
  { negative := bits / twoTo 63 % 2 = 1
    significand := if biased = 0 then fraction else fraction + twoTo 52
    exponent := if biased = 0 then -1074 else (biased : Int) - 1075 }

def Binary.ofFloat (x : Float) : Binary := .ofBits x.toBits.toNat

def Binary.numerator (b : Binary) : Nat :=
  b.significand * twoTo b.exponent.toNat

def Binary.denominator (b : Binary) : Nat := twoTo (-b.exponent).toNat

/-- A sign in front of negative numbers, zero included. -/
def Binary.sign (b : Binary) : List Char := if b.negative then ['-'] else []

end ScriptMinifier.Number
