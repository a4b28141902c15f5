import ScriptMinifier.Minifier
import ScriptMinifier.Number.Fixed

/-!
# Size reports

How many bytes a script had and has. Sizes are 64-bit words.
-/

namespace ScriptMinifier

structure SizeReport where
  source : Nat
  minified : Nat
  deriving Repr, DecidableEq, Inhabited

def sizeToFloat (n : Nat) : Float := n.toUInt64.toFloat

namespace SizeReport

def ofTexts (source minified : Text) : SizeReport :=
  ⟨Text.byteSize source, Text.byteSize minified⟩

/-- The part of the script that is gone, in percent. Nothing is gone of an empty
script. -/
def reduction (r : SizeReport) : Float :=
  if r.source = 0 then 0.0
  else (1.0 - sizeToFloat r.minified / sizeToFloat r.source) * 100.0

def reductionText (r : SizeReport) : Text := Number.fixed 1 r.reduction

/-- The bytes saved, a signed word of 64 bits; negative when the script grew. -/
def saved (r : SizeReport) : Int64 :=
  Int64.ofNat r.source - Int64.ofNat r.minified

end SizeReport

namespace Minification

def report (m : Minification) : SizeReport := .ofTexts m.source m.output

/-- Minified size over source size; one for an empty script. -/
def ratio (m : Minification) : Float :=
  if m.report.source = 0 then 1.0
  else sizeToFloat m.report.minified / sizeToFloat m.report.source

end Minification

/-- Puts a comma in front of every group of three digits but the first. -/
def groupDigits : Text → Text
  | [] => []
  | c :: cs =>
      if cs ≠ [] ∧ cs.length % 3 = 0 then c :: ',' :: groupDigits cs
      else c :: groupDigits cs

def grouped (n : Nat) : Text := groupDigits (Nat.toDigits 10 n)

end ScriptMinifier
