import ScriptPool.Command.Run

/-!
# What a command comes to

A command ends with a code: `0` if all went well, `1` if it failed, and `2` if the command line
could not be understood.  What it has to say goes to the output; of a failure there is a line of its
own.
-/

set_option autoImplicit false

namespace ScriptPool

/-- What a command writes. -/
inductive Output where
  | nothing
  | text (lines : String)
  | report (r : RunReport)

/-- What a command comes to. -/
structure Outcome where
  code : Nat
  output : Output := .nothing
  failure : Option CommandError := none

/-- The version of the program. -/
def programVersion : String := "0.1.0"

/-- How the program is used. -/
def usage : String :=
  "Usage: " ++ Arguments.programName ++ " [--log-json] run SCRIPT [OPTIONS]\n" ++
  "       " ++ Arguments.programName ++ " [--log-json] config [OPTIONS]\n" ++
  "\n" ++
  "Options:\n" ++
  "  -c, --config FILE      pool configuration\n" ++
  "  -p, --profile NAME     burst, steady, periodic or memory_intensive\n" ++
  "      --concurrency N    workers that run the script\n" ++
  "      --iterations N     executions by each worker\n" ++
  "      --arg JSON         values for the script\n"

/-- A command that could not do what it was asked for. -/
def Outcome.failed (cause : CommandError) : Outcome := { code := 1, failure := some cause }

/-- The line that tells of a failure. -/
def CommandError.line (e : CommandError) : String := "Error: " ++ e.message

/-- Does what a command line asks for.  Scripts are written in a language. -/
def Invocation.outcome (language : Language) (files : Files) : Invocation → Outcome
  | .misuse => { code := 2 }
  | .help => { code := 0, output := .text usage }
  | .version name => { code := 0, output := .text (name ++ " " ++ programVersion ++ "\n") }
  | .config source =>
      match source.describe files with
      | .ok text => { code := 0, output := .text text }
      | .error e => .failed e
  | .run r =>
      match r.run language files with
      | .error e => .failed e
      | .ok report =>
          match report.verdict with
          | .ok () => { code := 0, output := .report report }
          | .error e => { Outcome.failed e with output := .report report }

end ScriptPool
