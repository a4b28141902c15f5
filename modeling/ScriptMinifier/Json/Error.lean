import ScriptMinifier.Number.Layout
import ScriptMinifier.Text.Quoted

/-!
# What can be wrong with a JSON text

A text is read from left to right, and the first fault ends the reading. Values
are checked as they are met, so that a value of the wrong kind counts before
anything behind it.
-/

namespace ScriptMinifier.Json

inductive Found where
  | null
  | boolean (value : Bool)
  | integer (value : Int)
  | fraction (value : Number.Binary)
  | string (text : Text)
  | sequence
  | map
  deriving Repr, DecidableEq

inductive Error where
  | endInValue
  | endInString
  | endInList
  | endInObject
  | expectedColon
  | expectedListSeparator
  | expectedObjectSeparator
  | expectedWord
  | expectedValue
  | invalidEscape
  | invalidNumber
  | numberOutOfRange
  | controlCharacter
  | keyNotString
  | loneSurrogate
  | unfinishedSurrogatePair
  | trailingComma
  | trailingCharacters
  | wrongType (found : Found) (expected : String)
  | wrongValue (found : Found) (expected : String)
  | wrongLength (length : Nat) (expected : String)
  | unknownVariant (name : Text) (first second : String)
  | missingField (name : String)
  | duplicateField (name : String)
  deriving Repr, DecidableEq

/-- Fractions are written with the fewest digits, positionally from `1e-5` to
below `1e16`. -/
def fractionLayout : Number.Layout where
  leastPositional := -5
  greatestPositional := 15

def Found.describe : Found → String
  | .null => "null"
  | .boolean value => s!"boolean `{value}`"
  | .integer value => s!"integer `{value}`"
  | .fraction value =>
      s!"floating point `{String.ofList (fractionLayout.write value)}`"
  | .string text => s!"string {String.ofList (Text.quoted text)}"
  | .sequence => "sequence"
  | .map => "map"

def Error.message : Error → String
  | .endInValue => "EOF while parsing a value"
  | .endInString => "EOF while parsing a string"
  | .endInList => "EOF while parsing a list"
  | .endInObject => "EOF while parsing an object"
  | .expectedColon => "expected `:`"
  | .expectedListSeparator => "expected `,` or `]`"
  | .expectedObjectSeparator => "expected `,` or `\x7d`"
  | .expectedWord => "expected ident"
  | .expectedValue => "expected value"
  | .invalidEscape => "invalid escape"
  | .invalidNumber => "invalid number"
  | .numberOutOfRange => "number out of range"
  | .controlCharacter =>
      "control character (\\u0000-\\u001F) found while parsing a string"
  | .keyNotString => "key must be a string"
  | .loneSurrogate => "lone leading surrogate in hex escape"
  | .unfinishedSurrogatePair => "unexpected end of hex escape"
  | .trailingComma => "trailing comma"
  | .trailingCharacters => "trailing characters"
  | .wrongType found expected =>
      s!"invalid type: {found.describe}, expected {expected}"
  | .wrongValue found expected =>
      s!"invalid value: {found.describe}, expected {expected}"
  | .wrongLength length expected =>
      s!"invalid length {length}, expected {expected}"
  | .unknownVariant name first second =>
      s!"unknown variant `{String.ofList name}`, " ++
        s!"expected `{first}` or `{second}`"
  | .missingField name => s!"missing field `{name}`"
  | .duplicateField name => s!"duplicate field `{name}`"

end ScriptMinifier.Json
