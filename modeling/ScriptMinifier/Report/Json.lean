import ScriptMinifier.Json.Skip
import ScriptMinifier.Json.Writer
import ScriptMinifier.Report.Size

/-!
# Size reports in JSON

A report is an object with one field for each of its two sizes, or a list of the
two.
-/

namespace ScriptMinifier.SizeReport

open Json

def readSize : Reader Nat := do
  let c ← valueStart
  if c = '-' ∨ c.isDigit then
    match ← numeral c with
    | .integer n =>
        if n < 0 then throw (.wrongValue (.integer n) "usize")
        else return n.toNat
    | n => throw (.wrongType n.found "usize")
  else unexpected c "usize"

def readField (sizes : Option Nat × Option Nat) (key : Text) :
    Reader (Option Nat × Option Nat) := do
  if key = "original_bytes".toList then
    if sizes.1.isSome then throw (.duplicateField "original_bytes")
    colon
    return (some (← readSize), sizes.2)
  else if key = "minified_bytes".toList then
    if sizes.2.isSome then throw (.duplicateField "minified_bytes")
    colon
    return (sizes.1, some (← readSize))
  else
    colon
    skipValue
    return sizes

def readElement (index : Nat) : Reader Nat := do
  if ← nextElement (index = 0) then readSize
  else throw (.wrongLength index "struct SizeReport with 2 elements")

def reader : Reader SizeReport := do
  let c ← valueStart
  if c = '\x7b' then
    advance
    match ← object readField (none, none) with
    | (some source, some minified) => return ⟨source, minified⟩
    | (none, _) => throw (.missingField "original_bytes")
    | (_, none) => throw (.missingField "minified_bytes")
  else if c = '[' then
    advance
    let source ← readElement 0
    let minified ← readElement 1
    closeList
    return ⟨source, minified⟩
  else unexpected c "struct SizeReport"

def ofJson (s : Text) : Except Json.Error SizeReport := reader.whole s

def toJson (r : SizeReport) : Text :=
  writeObject
    [("original_bytes".toList, Nat.toDigits 10 r.source),
     ("minified_bytes".toList, Nat.toDigits 10 r.minified)]

end ScriptMinifier.SizeReport
