import ScriptMinifier.Number.Shortest

/-!
# Writing floating-point numbers

The digits are the fewest that read back. A layout says which numbers are
written positionally; the others have an exponent, always with its sign.
-/

namespace ScriptMinifier.Number

structure Layout where
  /-- The least exponent of a leading digit that is written positionally. -/
  leastPositional : Int
  /-- The greatest such exponent. -/
  greatestPositional : Int

def exponentText (e : Int) : List Char :=
  ['e', if e < 0 then '-' else '+'] ++ Nat.toDigits 10 e.natAbs

/-- Digits with the point behind the one that `lead` is the exponent of. Whole
numbers end in `.0`. -/
def positional (digits : List Char) (lead : Int) : List Char :=
  if lead < 0 then ['0', '.'] ++ List.replicate (lead.natAbs - 1) '0' ++ digits
  else
    let whole := lead.toNat + 1
    let padded := digits ++ List.replicate (whole - digits.length) '0'
    let places := padded.drop whole
    padded.take whole ++ '.' :: (if places = [] then ['0'] else places)

def Layout.write (n : Layout) (b : Binary) : List Char :=
  if b.significand = 0 then b.sign ++ ['0', '.', '0']
  else
    let d := b.shortest
    let digits := Nat.toDigits 10 d.digits
    let lead := d.exponent + digits.length - 1
    if n.leastPositional ≤ lead ∧ lead ≤ n.greatestPositional then
      b.sign ++ positional digits lead
    else
      let point := if digits.length = 1 then [] else '.' :: digits.drop 1
      b.sign ++ digits.take 1 ++ point ++ exponentText lead

end ScriptMinifier.Number
