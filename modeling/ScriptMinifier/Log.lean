import ScriptMinifier.Report.Size
import ScriptMinifier.Settings.Basic
import ScriptMinifier.Text.Quoted

/-!
# The log

A run reports what it does as events. Each has a level, belongs to a part of the
program and is one line of the log. A filter says which events are shown.
-/

namespace ScriptMinifier

inductive Level where
  | error
  | warn
  | info
  | debug
  | trace
  deriving Repr, DecidableEq

namespace Level

def all : List Level := [.error, .warn, .info, .debug, .trace]

def rank : Level → Nat
  | .error => 1
  | .warn => 2
  | .info => 3
  | .debug => 4
  | .trace => 5

def name : Level → String
  | .error => "ERROR"
  | .warn => "WARN"
  | .info => "INFO"
  | .debug => "DEBUG"
  | .trace => "TRACE"

end Level

/-- Something that happened in a run. Sizes are in bytes. -/
inductive Event where
  | settingsLoaded (path : Path) (settings : Settings)
  | renamesRejected (cause : RenameError)
  | lexed (comments literals : Nat)
  | stripped (before after : Nat)
  | compressed (size : Nat)
  | renamed (names size : Nat)
  | minified (strategy : Strategy) (report : SizeReport)
  | inputMissing (path : Path)
  | finished (input : Path) (settings : Settings) (literals : Nat)
      (passes : List String)
  deriving Repr, DecidableEq

/-! ## Values in log lines -/

def listText (opening closing : Char) (items : List Text) : Text :=
  [opening] ++ List.intercalate [',', ' '] items ++ [closing]

def renamesText (map : RenameMap) : Text :=
  listText '\x7b' '\x7d' (map.bindings.map fun b =>
    Text.quoted b.1 ++ [':', ' '] ++ Text.quoted b.2)

def Strategy.label : Strategy → String
  | .lexical => "Lexical"
  | .textual => "Textual"

def Settings.describe (s : Settings) : Text :=
  "MinifierConfig \x7b input: ".toList ++ Text.quoted s.input.text ++
  ", output: ".toList ++
  (match s.output with
    | none => "None".toList
    | some p => "Some(".toList ++ Text.quoted p.text ++ [')']) ++
  ", strategy: ".toList ++ s.strategy.label.toList ++
  ", renames: ".toList ++ renamesText s.renames ++ " \x7d".toList

/-- Controls that a terminal acts on are shown by their codes. -/
def shownChar (c : Char) : Text :=
  if c = '\x1b' ∨ c = '\x07' ∨ c = '\x08' ∨ c = '\x0c' ∨ c = '\x7f' then
    let digits := Nat.toDigits 16 c.toNat
    ['\\', 'x'] ++ List.replicate (2 - digits.length) '0' ++ digits
  else if 0x80 ≤ c.toNat ∧ c.toNat ≤ 0x9f then Text.codePointEscape c
  else [c]

/-! ## Lines -/

namespace Event

def level : Event → Level
  | .renamesRejected .. | .inputMissing .. => .warn
  | .finished .. => .info
  | _ => .debug

/-- The part of the program that an event belongs to. -/
def source : Event → String
  | .settingsLoaded .. => "jm_core::config"
  | .inputMissing .. | .finished .. => "jm_cli::driver"
  | _ => "jm_minifier::pipeline"

def message : Event → Text
  | .settingsLoaded .. => "loaded config".toList
  | .renamesRejected .. => "rename map rejected, renaming disabled".toList
  | .lexed .. => "lexed source".toList
  | .stripped .. => "stripped comments".toList
  | .compressed .. => "whitespace passes done".toList
  | .renamed .. => "renamed identifiers".toList
  | .minified .. => "minified".toList
  | .inputMissing .. => "input missing".toList
  | .finished input .. => ("minified ".toList ++ input.text).flatMap shownChar

def fields : Event → List (String × Text)
  | .settingsLoaded path settings =>
      [("path", path.text), ("config", settings.describe)]
  | .renamesRejected cause => [("error", cause.message.toList)]
  | .lexed comments literals =>
      [("comments", Nat.toDigits 10 comments),
       ("literals", Nat.toDigits 10 literals)]
  | .stripped before after =>
      [("before", Nat.toDigits 10 before), ("after", Nat.toDigits 10 after)]
  | .compressed size => [("len", Nat.toDigits 10 size)]
  | .renamed names size =>
      [("names", Nat.toDigits 10 names), ("len", Nat.toDigits 10 size)]
  | .minified strategy report =>
      [("strategy", strategy.name.toList),
       ("original", Nat.toDigits 10 report.source),
       ("minified", Nat.toDigits 10 report.minified)]
  | .inputMissing path => [("path", path.text)]
  | .finished _ settings literals passes =>
      [("strategy", settings.strategy.name.toList),
       ("renames", Nat.toDigits 10 settings.renames.size),
       ("literals", Nat.toDigits 10 literals),
       ("passes", listText '[' ']' (passes.map fun p => Text.quoted p.toList))]

def line (e : Event) : Text :=
  let level := e.level.name.toList
  List.replicate (5 - level.length) ' ' ++ level ++ ' ' :: e.source.toList ++
    [':', ' '] ++ e.message ++
    e.fields.flatMap fun f => ' ' :: f.1.toList ++ '=' :: f.2

end Event

def Minification.events (m : Minification) : List Event :=
  (match m.minifier.strategy with
    | .lexical => .lexed m.prepared.comments m.prepared.literals.size
    | .textual =>
        .stripped (Text.byteSize m.source)
          (Text.byteSize (Comment.strip m.source))) ::
  .compressed (Text.byteSize m.compressed) ::
  (if m.minifier.renamer.isEmpty then []
    else [.renamed m.minifier.renamer.size (Text.byteSize m.renamed)]) ++
  [.minified m.minifier.strategy m.report]

/-! ## Filters -/

/-- Shows events of the parts that start with `source` up to a level; none at
all without one. -/
structure Directive where
  source : Text
  level : Option Level
  deriving Repr, DecidableEq

/-- The directives of a log. Of those that apply to an event the one with the
longest source counts. -/
structure LogFilter where
  directives : List Directive := []
  deriving Repr, DecidableEq, Inhabited

/-- Reads the name of a level, or `off`. -/
def Level.parse? (s : Text) : Option (Option Level) :=
  let lower := s.map Char.toLower
  if lower = "off".toList then some none
  else (Level.all.find? fun l => l.name.toLower.toList == lower).map some

/-- Reads a level for everything, a source, or a source and its level. -/
def Directive.parse? (s : Text) : Option Directive :=
  let source := s.takeWhile (· != '=')
  match s.drop source.length with
  | [] =>
      match Level.parse? s with
      | some level => some ⟨[], level⟩
      | none => if s = [] then none else some ⟨source, some .trace⟩
  | _ :: level => (Level.parse? level).map fun l => ⟨source, l⟩

namespace LogFilter

/-- Reads directives between commas. Those that cannot be read are left out. -/
def parse (s : Text) : LogFilter := ⟨(s.splitOn ',').filterMap Directive.parse?⟩

/-- The level up to which events of a source are shown: warnings, unless a
directive says something else. -/
def levelFor (f : LogFilter) (source : Text) : Option Level :=
  let fitting := f.directives.filter fun d => d.source.isPrefixOf source
  let longer (best d : Directive) : Directive :=
    if best.source.length ≤ d.source.length then d else best
  (fitting.foldl longer ⟨[], some .warn⟩).level

def shows (f : LogFilter) (e : Event) : Bool :=
  (f.levelFor e.source.toList).any fun l => e.level.rank ≤ l.rank

end LogFilter

end ScriptMinifier
