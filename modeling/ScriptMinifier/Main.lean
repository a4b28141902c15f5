import ScriptMinifier.Run

/-!
# The command line

Carries the program out on the files of the operating system.
-/

namespace ScriptMinifier

/-- The fault that an error of the operating system stands for. Its code may
come with either sign. -/
def faultOf (e : IO.Error) : Fault :=
  match e with
  | .noFileOrDirectory .. | .noSuchThing .. => .notFound
  | .inappropriateType _ code _ =>
      if code = 20 ∨ code = 0 - 20 then .notADirectory else .isADirectory
  | other => .other other.toString

def answerOf {α : Type} (action : IO α) : IO (Except Fault α) := do
  try
    return .ok (← action)
  catch e => return .error (faultOf e)

/-- Paths are passed to the operating system unless they cannot be. -/
def onPath {α : Type} (path : Path) (action : String → IO α) :
    IO (Except Fault α) := do
  if path.text.contains '\x00' then return .error .nulInPath
  answerOf (action path.toString)

def printNow (stream : IO.FS.Stream) (s : Text) : IO (Except Fault Unit) :=
  answerOf do
    stream.putStr (String.ofList s)
    stream.flush

/-- Carries a job out for real. -/
def Job.perform {α : Type} (filter : LogFilter) (job : Job α) : IO α :=
  match job with
  | .done result => return result
  | .probe path next => do
      let found ← onPath path fun p => do
        let _ ← IO.FS.Handle.mk p .read
      (next found.isOk).perform filter
  | .read path next => do
      let content ← onPath path fun p => IO.FS.readBinFile p
      (next content).perform filter
  | .write path content next => do
      let answer ← onPath path fun p => IO.FS.writeBinFile p content
      (next answer).perform filter
  | .print text next => do
      let answer ← printNow (← IO.getStdout) text
      (next answer).perform filter
  | .complain text next => do
      let _ ← printNow (← IO.getStderr) text
      next.perform filter
  | .log event next => do
      if filter.shows event then
        let _ ← printNow (← IO.getStderr) (event.line ++ ['\n'])
      next.perform filter

end ScriptMinifier

/-- The command line of the minifier. -/
def main (arguments : List String) : IO UInt32 := do
  let filter := ScriptMinifier.LogFilter.parse
    ((← IO.getEnv "RUST_LOG").getD "").toList
  (ScriptMinifier.program (arguments.map String.toList)).perform filter
