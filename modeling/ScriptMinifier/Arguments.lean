import ScriptMinifier.Path
import ScriptMinifier.Strategy

/-!
# Command-line arguments

Arguments are read from left to right, and the first problem ends the reading.
The value of a parameter is checked when the next known argument, or the end, is
reached, so an unknown argument behind a bad value counts first.
-/

namespace ScriptMinifier

/-- What takes a value. -/
inductive Parameter where
  | root
  | input
  | output
  | config
  | strategy
  deriving Repr, DecidableEq

/-- What takes none. -/
inductive Flag where
  | help
  | version
  deriving Repr, DecidableEq

namespace Parameter

def all : List Parameter := [.root, .input, .output, .config, .strategy]

def name : Parameter → String
  | .root => "root"
  | .input => "input"
  | .output => "output"
  | .config => "config"
  | .strategy => "strategy"

def letter? : Parameter → Option Char
  | .root => none
  | .input => some 'i'
  | .output => some 'o'
  | .config => some 'c'
  | .strategy => some 's'

/-- How messages name a parameter: `--input <INPUT>`. -/
def usage (p : Parameter) : String := s!"--{p.name} <{p.name.toUpper}>"

end Parameter

namespace Flag

def all : List Flag := [.help, .version]

def name : Flag → String
  | .help => "help"
  | .version => "version"

def letter : Flag → Char
  | .help => 'h'
  | .version => 'V'

end Flag

inductive Known where
  | parameter (p : Parameter)
  | flag (f : Flag)
  deriving Repr, DecidableEq

def Known.ofName? (name : Text) : Option Known :=
  ((Parameter.all.find? fun p => p.name.toList == name).map .parameter).or
    ((Flag.all.find? fun f => f.name.toList == name).map .flag)

def Known.ofLetter? (c : Char) : Option Known :=
  ((Parameter.all.find? fun p => p.letter? == some c).map .parameter).or
    ((Flag.all.find? fun f => f.letter == c).map .flag)

structure Arguments where
  /-- The directory that input and output paths start from. -/
  root : Path := .ofString "."
  input : Option Path := none
  output : Option Path := none
  config : Option Path := none
  strategy : Option Strategy := none
  deriving Repr, DecidableEq, Inhabited

/-- Why there is no run: a wish to be told something, or a fault. -/
inductive Arguments.Stop where
  | help
  | version
  | unexpected (argument : Text)
  | valueRequired (parameter : Parameter)
  | badStrategy (value : Text) (cause : UnknownStrategy)
  | repeated (parameter : Parameter)
  | unneededValue (value : Text) (flag : Flag)
  deriving Repr, DecidableEq

namespace Arguments

def Stop.ofFlag : Flag → Stop
  | .help => .help
  | .version => .version

def Stop.isFault : Stop → Bool
  | .help | .version => false
  | _ => true

def Stop.message : Stop → String
  | .help => "Strip comments and whitespace from a JavaScript file"
  | .version => "jsmin 0.1.0"
  | .unexpected argument =>
      s!"error: unexpected argument '{String.ofList argument}' found"
  | .valueRequired p =>
      s!"error: a value is required for '{p.usage}' but none was supplied"
  | .badStrategy value cause =>
      s!"error: invalid value '{String.ofList value}' " ++
        s!"for '{Parameter.strategy.usage}': {cause.message}"
  | .repeated p =>
      s!"error: the argument '{p.usage}' cannot be used multiple times"
  | .unneededValue value f =>
      s!"error: unexpected value '{String.ofList value}' " ++
        s!"for '--{f.name}' found; no more were expected"

def Stop.headline (s : Stop) : Text := Text.firstLine s.message.toList

/-- The arguments read so far. A parameter is pending, with or without its
value, until it is settled. -/
structure Partial where
  root : Option Path := none
  input : Option Path := none
  output : Option Path := none
  config : Option Path := none
  strategy : Option Strategy := none
  pending : Option (Parameter × Option Text) := none
  deriving Repr, DecidableEq

namespace Partial

def isGiven (a : Partial) : Parameter → Bool
  | .root => a.root.isSome
  | .input => a.input.isSome
  | .output => a.output.isSome
  | .config => a.config.isSome
  | .strategy => a.strategy.isSome

/-- A path, which must not be empty. -/
def checkPath (p : Parameter) (value : Text) : Except Stop Path :=
  if value = [] then .error (.valueRequired p) else .ok ⟨value⟩

def checkStrategy (value : Text) : Except Stop Strategy :=
  match Strategy.parse value with
  | .ok strategy => .ok strategy
  | .error cause => .error (.badStrategy value cause)

def store (a : Partial) (p : Parameter) (value : Text) :
    Except Stop Partial := do
  if a.isGiven p then throw (.repeated p)
  match p with
  | .root => return { a with root := some (← checkPath p value) }
  | .input => return { a with input := some (← checkPath p value) }
  | .output => return { a with output := some (← checkPath p value) }
  | .config => return { a with config := some (← checkPath p value) }
  | .strategy => return { a with strategy := some (← checkStrategy value) }

def settle (a : Partial) : Except Stop Partial :=
  match a.pending with
  | none => .ok a
  | some (p, none) => .error (.valueRequired p)
  | some (p, some value) => { a with pending := none }.store p value

def take (a : Partial) (known : Known) (attached : Option Text) :
    Except Stop Partial := do
  match known, attached with
  | .parameter p, some value => (← a.settle).store p value
  | .parameter p, none => return { ← a.settle with pending := some (p, none) }
  | .flag f, some value => throw (.unneededValue value f)
  | .flag f, none =>
      let _ ← a.settle
      throw (.ofFlag f)

/-- Takes an argument that starts with two dashes, which are gone. -/
def takeLong (a : Partial) (body : Text) : Except Stop Partial :=
  let name := body.takeWhile (· != '=')
  let attached := match body.drop name.length with
    | _ :: value => some value
    | [] => none
  match Known.ofName? name with
  | some known => a.take known attached
  | none => .error (.unexpected ("--".toList ++ name))

/-- Takes an argument that starts with one dash and the letter `c`. What comes
behind the letter of a parameter is its value; an equals sign in front of the
value is dropped. -/
def takeShort (a : Partial) (c : Char) (body : Text) : Except Stop Partial :=
  match Known.ofLetter? c with
  | some (.parameter p) =>
      match body with
      | [] => a.take (.parameter p) none
      | '=' :: value => a.take (.parameter p) (some value)
      | value => a.take (.parameter p) (some value)
  | some (.flag f) => a.take (.flag f) none
  | none => .error (.unexpected ['-', c])

/-- Takes an argument that can only be the value of a pending parameter. -/
def takeValue (a : Partial) (argument : Text) : Except Stop Partial :=
  match a.pending with
  | some (p, none) => .ok { a with pending := some (p, some argument) }
  | _ => .error (.unexpected argument)

/-- Reads the rest of the arguments. Behind a double dash all of them are
values, and none is wanted. -/
def takeAll (a : Partial) : List Text → Except Stop Partial
  | [] => a.settle
  | ['-', '-'] :: rest =>
      match rest with
      | [] => a.settle
      | argument :: _ => .error (.unexpected argument)
  | ('-' :: '-' :: body) :: rest => do (← a.takeLong body).takeAll rest
  | ('-' :: c :: body) :: rest => do (← a.takeShort c body).takeAll rest
  | argument :: rest => do (← a.takeValue argument).takeAll rest

end Partial

def parse (arguments : List Text) : Except Stop Arguments := do
  let a ← Partial.takeAll {} arguments
  return {
    root := a.root.getD (.ofString ".")
    input := a.input
    output := a.output
    config := a.config
    strategy := a.strategy }

end Arguments

end ScriptMinifier
