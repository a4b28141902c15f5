import ScriptMinifier.Arguments
import ScriptMinifier.Job
import ScriptMinifier.Report.Block
import ScriptMinifier.Settings.Json

/-!
# A run

The arguments, and the settings file that they may name, say what to do: read a
script, minify it, write the result, and tell the console. A script that is not
there is no fault of the run.
-/

namespace ScriptMinifier

inductive SettingsError where
  | unreadable (fault : Fault)
  | malformed (error : Json.Error)
  deriving Repr, DecidableEq

inductive RunError where
  | settings (error : SettingsError)
  | reading (path : Path) (fault : Fault)
  | writing (path : Path) (fault : Fault)
  | console (fault : Fault)
  deriving Repr, DecidableEq

inductive Outcome where
  | minified (input output : Path) (report : SizeReport)
  | missingInput (input : Path)
  deriving Repr, DecidableEq

/-! ## Messages -/

def SettingsError.cause : SettingsError → String
  | .unreadable fault => fault.message
  | .malformed error => error.message

def SettingsError.message (e : SettingsError) : String :=
  match e with
  | .unreadable _ => s!"I/O error: {e.cause}"
  | .malformed _ => s!"Config error: {e.cause}"

/-- What failed, and why. -/
def RunError.chain : RunError → List String
  | .settings error => [error.message, error.cause]
  | .reading path fault => [s!"failed to read {path.toString}", fault.message]
  | .writing path fault => [s!"failed to write {path.toString}", fault.message]
  | .console fault => [fault.message]

def missingMessage (input : Path) : String := s!"{input.toString} not found!"

/-- A text with four blanks in front of each line. -/
def indented (s : Text) : Text :=
  List.intercalate ['\n']
    ((s.splitOn '\n').map fun line => "    ".toList ++ line)

def causesBlock : List String → Text
  | [] => []
  | causes =>
      "\n\nCaused by:".toList ++
        causes.flatMap fun cause => '\n' :: indented cause.toList

def RunError.report (e : RunError) : Text :=
  match e.chain with
  | [] => []
  | outer :: causes =>
      "Error: ".toList ++ outer.toList ++ causesBlock causes ++ ['\n']

/-! ## Steps -/

def decodeUtf8 (bytes : ByteArray) : Except Fault Text :=
  match String.fromUTF8? bytes with
  | some s => .ok s.toList
  | none => .error .notUtf8

def encodeUtf8 (s : Text) : ByteArray := (String.ofList s).toUTF8

def readText (path : Path) : Job (Except Fault Text) :=
  .read path fun bytes => .done (bytes.bind decodeUtf8)

def writeText (path : Path) (s : Text) : Job (Except Fault Unit) :=
  .write path (encodeUtf8 s) .done

def printText (s : Text) : Job (Except Fault Unit) := .print s .done

def logAll (events : List Event) : Job Unit := events.foldr Job.log (.done ())

def loadSettings (path : Path) : Job (Except SettingsError Settings) := do
  match ← readText path with
  | .error fault => return .error (.unreadable fault)
  | .ok text =>
      match Settings.ofJson text with
      | .error error => return .error (.malformed error)
      | .ok settings =>
          .log (.settingsLoaded path settings) (.done (.ok settings))

/-- The settings with what the arguments say in place. -/
def Arguments.override (a : Arguments) (s : Settings) : Settings :=
  { s with
    input := a.input.getD s.input
    output := a.output.or s.output
    strategy := a.strategy.getD s.strategy }

/-- The defaults, the settings file over them, the arguments over both. -/
def Arguments.resolve (a : Arguments) :
    Job (Except SettingsError Settings) := do
  let base ← match a.config with
    | some path => loadSettings path
    | none => pure (.ok {})
  return base.map a.override

/-- The minifier that settings ask for. Names that cannot be searched for are
reported and left out. -/
def Settings.minifier (s : Settings) : Job Minifier :=
  let minifier : Minifier := { strategy := s.strategy }
  match Renamer.ofMap s.renames with
  | .ok _ => .done (minifier.withRenames s.renames)
  | .error cause =>
      .log (.renamesRejected cause) (.done (minifier.withRenames s.renames))

def Settings.minify (s : Settings) (source : Text) : Job Minification := do
  let minifier ← s.minifier
  let result := minifier.minify source
  logAll result.events
  logAll [.finished s.input s result.prepared.literals.size minifier.passes]
  return result

/-! ## The run -/

/-- A job that stops at the first failure. -/
abbrev Attempt := ExceptT RunError Job

/-- One step of a run, and how the run fails where the step does. -/
def attempt {ε α : Type} (failure : ε → RunError) (step : Job (Except ε α)) :
    Attempt α :=
  ExceptT.mk do return (← step).mapError failure

def sayLine (s : String) : Attempt Unit :=
  attempt .console (printText (s.toList ++ ['\n']))

def Settings.process (s : Settings) (root : Path) : Attempt Outcome := do
  let source := root.join s.input
  let target := root.join s.outputPath
  sayLine s!"Reading {s.input.toString}..."
  let text ← attempt (.reading source) (readText source)
  sayLine "Minifying..."
  let result ← s.minify text
  attempt (.writing target) (writeText target result.output)
  attempt .console (printText (result.report.block s.outputPath))
  return .minified s.input s.outputPath result.report

def Settings.reportMissing (s : Settings) (root : Path) : Attempt Outcome := do
  logAll [.inputMissing (root.join s.input)]
  sayLine s!"Error: {missingMessage s.input}"
  return .missingInput s.input

def Arguments.run (a : Arguments) : Job (Except RunError Outcome) :=
  ExceptT.run do
    let settings ← attempt .settings a.resolve
    let found ← (Job.probe (a.root.join settings.input) .done : Job Bool)
    if found then settings.process a.root else settings.reportMissing a.root

/-! ## The program -/

/-- The program with its arguments; the result is its exit code. -/
def program (arguments : List Text) : Job UInt32 := do
  match Arguments.parse arguments with
  | .error stop =>
      let text := stop.headline ++ ['\n']
      if stop.isFault then .complain text (.done 2)
      else .print text fun _ => .done 0
  | .ok a =>
      match ← a.run with
      | .ok _ => return 0
      | .error error => .complain error.report (.done 1)

end ScriptMinifier
