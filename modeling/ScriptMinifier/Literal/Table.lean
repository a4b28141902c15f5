import ScriptMinifier.Text.Class
import ScriptMinifier.Text.Replace

/-!
# Placeholders for literals

A literal taken out of a script leaves a numbered placeholder, such as
`__STRING_0__`, behind. The table of literals puts the placeholders back in one
pass: what is put back is not searched again.
-/

namespace ScriptMinifier

def placeholderOpening : Text := "__STRING_".toList

def placeholderClosing : Text := "__".toList

def placeholder (index : Nat) : Text :=
  placeholderOpening ++ Nat.toDigits 10 index ++ placeholderClosing

/-- The digits of the placeholder at the start of `s`. Digits of all writing
systems count that words know. -/
def placeholderDigits? (s : Text) : Option Text :=
  if placeholderOpening.isPrefixOf s then
    let digits := (s.drop placeholderOpening.length).takeWhile isWordDigit
    let behind := s.drop (placeholderOpening.length + digits.length)
    if digits ≠ [] ∧ placeholderClosing.isPrefixOf behind then some digits
    else none
  else none

structure LiteralTable where
  entries : Array Text := #[]
  deriving Repr, DecidableEq, Inhabited

namespace LiteralTable

def size (table : LiteralTable) : Nat := table.entries.size

def isEmpty (table : LiteralTable) : Bool := table.entries.isEmpty

def toList (table : LiteralTable) : List Text := table.entries.toList

def get? (table : LiteralTable) (index : Nat) : Option Text :=
  table.entries[index]?

/-- Adds a literal; its placeholder is that of the old size. -/
def push (table : LiteralTable) (literal : Text) : LiteralTable :=
  ⟨table.entries.push literal⟩

def ofList (literals : List Text) : LiteralTable := ⟨literals.toArray⟩

/-- The literal that the digits of a placeholder name. Only ASCII digits name
one. -/
def named? (table : LiteralTable) (digits : Text) : Option Text :=
  if digits.all Char.isDigit then table.get? (Nat.ofDigitChars 10 digits 0)
  else none

/-- Puts a literal in place of its placeholder. A placeholder that names no
literal stays. -/
def restoreRule (table : LiteralTable) : Text.Rule := fun _ s =>
  (placeholderDigits? s).map fun digits =>
    let whole := placeholderOpening ++ digits ++ placeholderClosing
    ⟨whole.length, (table.named? digits).getD whole⟩

def restore (table : LiteralTable) (s : Text) : Text :=
  Text.replace table.restoreRule s

@[simp] theorem size_push (table : LiteralTable) (literal : Text) :
    (table.push literal).size = table.size + 1 := by
  simp [push, size]

@[simp] theorem toList_push (table : LiteralTable) (literal : Text) :
    (table.push literal).toList = table.toList ++ [literal] := by
  simp [push, toList]

end LiteralTable

end ScriptMinifier
