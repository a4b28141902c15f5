import ScriptMinifier.Json.Skip
import ScriptMinifier.Json.Writer
import ScriptMinifier.Settings.Basic

/-!
# Settings in JSON

Settings are an object with the fields `input`, `output`, `strategy` and
`renames`, or a list of them in that order. Fields that are missing have their
defaults, and fields with other names are passed over.
-/

namespace ScriptMinifier.Settings

open Json

/-! ## Reading -/

def readPath : Reader Path := do return ⟨← string "path string"⟩

def readOptionalPath : Reader (Option Path) := do
  if (← peek) = some 'n' then
    expectWord "null"
    return none
  else return some (← readPath)

def strategyNamed (name : Text) : Reader Strategy :=
  match Strategy.ofName? name with
  | some strategy => return strategy
  | none =>
      throw (.unknownVariant name Strategy.lexical.name Strategy.textual.name)

def readNull : Reader Unit := do
  let c ← valueStart
  if c = 'n' then expectWord "null" else unexpected c "unit"

/-- A strategy is its name, or an object with the name as its only key and null
behind it. -/
def readStrategy : Reader Strategy := do
  let c ← valueStart
  if c = '"' then
    advance
    strategyNamed (← stringBody)
  else if c = '\x7b' then
    advance
    let strategy ← strategyNamed (← string "variant identifier")
    colon
    readNull
    match ← peek with
    | some '\x7d' => advance; return strategy
    | some _ => throw .expectedValue
    | none => throw .endInObject
  else throw .expectedValue

def readRename (map : RenameMap) (name : Text) : Reader RenameMap := do
  colon
  return map.insert name (← string "a string")

def readRenames : Reader RenameMap := do
  let c ← valueStart
  if c = '\x7b' then
    advance
    object readRename .empty
  else unexpected c "a map"

structure Fields where
  input : Option Path := none
  output : Option (Option Path) := none
  strategy : Option Strategy := none
  renames : Option RenameMap := none

def Fields.settings (f : Fields) : Settings :=
  let base : Settings := {}
  { input := f.input.getD base.input
    output := f.output.getD base.output
    strategy := f.strategy.getD base.strategy
    renames := f.renames.getD base.renames }

/-- Reads the value of a field that may be met only once. -/
def once {α β : Type} (name : String) (old : Option α) (read : Reader β) :
    Reader β := do
  if old.isSome then throw (.duplicateField name)
  colon
  read

def readField (f : Fields) (key : Text) : Reader Fields := do
  if key = "input".toList then
    return { f with input := some (← once "input" f.input readPath) }
  else if key = "output".toList then
    return { f with output := some (← once "output" f.output readOptionalPath) }
  else if key = "strategy".toList then
    let strategy ← once "strategy" f.strategy readStrategy
    return { f with strategy := some strategy }
  else if key = "renames".toList then
    return { f with renames := some (← once "renames" f.renames readRenames) }
  else
    colon
    skipValue
    return f

/-- Reads the next element of a list, if there is one. -/
def element? {α : Type} (first : Bool) (read : Reader α) :
    Reader (Option α) := do
  if ← nextElement first then return some (← read) else return none

def readList : Reader Fields := do
  let input ← element? true readPath
  let output ← element? false readOptionalPath
  let strategy ← element? false readStrategy
  let renames ← element? false readRenames
  closeList
  return { input, output, strategy, renames }

def reader : Reader Settings := do
  let c ← valueStart
  if c = '\x7b' then
    advance
    return (← object readField {}).settings
  else if c = '[' then
    advance
    return (← readList).settings
  else unexpected c "struct MinifierConfig"

def ofJson (s : Text) : Except Json.Error Settings := reader.whole s

/-! ## Writing -/

def writeRenames (map : RenameMap) : Text :=
  writeObject (map.bindings.map fun b => (b.1, writeString b.2))

def toJson (s : Settings) : Text :=
  writeObject
    [("input".toList, writeString s.input.text),
     ("output".toList, s.output.elim "null".toList fun p => writeString p.text),
     ("strategy".toList, writeString s.strategy.name.toList),
     ("renames".toList, writeRenames s.renames)]

end ScriptMinifier.Settings
