import ScriptPool.Command.Outcome
import ScriptPool.Exchange.Script

/-!
# The program

Reads the files that the command line mentions, and writes what the command comes to.
-/

set_option autoImplicit false

section Program

open ScriptPool

/-- The text of a file, if it can be read. -/
def readText (path : String) : IO (Option String) := do
  try
    return some (← IO.FS.readFile path)
  catch _ => return none

/-- Runs the program. -/
def main (args : List String) : IO UInt32 := do
  let invocation := Invocation.ofWords args
  let texts ← invocation.paths.mapM fun path => do
    return (path, ← readText path)
  let files : Files := fun path => (texts.lookup path).join
  let started ← IO.monoMsNow
  let outcome := invocation.outcome .ofDocuments files
  match outcome.output with
  | .nothing => pure ()
  | .text lines => IO.print lines
  | .report r =>
      let ended ← IO.monoMsNow
      IO.println (r.toJson (ended - started)).pretty
  if outcome.code = 2 then IO.eprint usage
  match outcome.failure with
  | some e => IO.eprintln e.line
  | none => pure ()
  return outcome.code.toUInt32

end Program
