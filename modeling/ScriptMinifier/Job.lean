import ScriptMinifier.FileTree
import ScriptMinifier.Log

/-!
# Jobs

What a run asks of its host, as data: to look at files, to write one, to print
and to keep a log. The same job can be carried out on a file tree, where
everything it does can be reasoned about, or by the operating system.
-/

namespace ScriptMinifier

inductive Job (α : Type) where
  | done (result : α)
  /-- Is there something at this path? -/
  | probe (path : Path) (next : Bool → Job α)
  | read (path : Path) (next : Except Fault ByteArray → Job α)
  | write (path : Path) (content : ByteArray) (next : Except Fault Unit → Job α)
  | print (text : Text) (next : Except Fault Unit → Job α)
  | complain (text : Text) (next : Job α)
  | log (event : Event) (next : Job α)

namespace Job

variable {α β : Type}

def andThen (job : Job α) (f : α → Job β) : Job β :=
  match job with
  | .done result => f result
  | .probe path next => .probe path fun found => (next found).andThen f
  | .read path next => .read path fun content => (next content).andThen f
  | .write path content next =>
      .write path content fun answer => (next answer).andThen f
  | .print text next => .print text fun answer => (next answer).andThen f
  | .complain text next => .complain text (next.andThen f)
  | .log event next => .log event (next.andThen f)

instance : Monad Job where
  pure := .done
  bind := .andThen

end Job

/-- Files, and what has been said: on the console, and beside it. -/
structure Host where
  files : FileTree := {}
  filter : LogFilter := {}
  console : Text := []
  errors : Text := []
  /-- What the console shows once it is given more, and how it answers. -/
  display : Text → Text → Text × Except Fault Unit :=
    fun shown text => (shown ++ text, .ok ())

/-- Carries a job out. -/
def Job.runOn {α : Type} (job : Job α) (host : Host) : α × Host :=
  match job with
  | .done result => (result, host)
  | .probe path next => (next (host.files.contains path)).runOn host
  | .read path next => (next (host.files.read path)).runOn host
  | .write path content next =>
      match host.files.write path content with
      | .ok files => (next (.ok ())).runOn { host with files }
      | .error fault => (next (.error fault)).runOn host
  | .print text next =>
      let (console, answer) := host.display host.console text
      (next answer).runOn { host with console }
  | .complain text next =>
      next.runOn { host with errors := host.errors ++ text }
  | .log event next =>
      if host.filter.shows event then
        next.runOn { host with errors := host.errors ++ event.line ++ ['\n'] }
      else next.runOn host

end ScriptMinifier
