import ScriptPool.Duration

/-!
# Command lines

A command line is a list of words.  Words that begin with a hyphen are *switches*, and the others
are *operands*, of which the first names the command.  A switch has a long name and perhaps a
letter; it may take a value, either in the same word or as the next one.

`--name value`, `--name=value`, `-n value`, `-nvalue` and `-n=value` all say the same.  Letters of
switches without a value can share a word.  A lone hyphen is an operand, and after `--` everything
is.

Words are read from left to right, and the first one that ends the matter does: what cannot be
understood, or a switch that asks for the version or for help.
-/

set_option autoImplicit false

namespace ScriptPool

/-- Where a configuration comes from: a file, with a preset over it. -/
structure ConfigSource where
  file : Option String := none
  profile : Option String := none
  deriving Repr, DecidableEq, Inhabited

/-- A script to be run. -/
structure RunRequest where
  /-- The file that the script is in. -/
  script : String
  source : ConfigSource := {}
  /-- How many workers there are, and how often each of them runs the script. -/
  concurrency : Nat := 1
  iterations : Nat := 1
  /-- A document with values for the script. -/
  argument : Option String := none
  deriving Repr, DecidableEq, Inhabited

/-- What a command line asks for. -/
inductive Invocation where
  /-- It cannot be understood. -/
  | misuse
  | help
  /-- The version, under this name. -/
  | version (of : String)
  | run (r : RunRequest)
  /-- To show the configuration in force. -/
  | config (source : ConfigSource)
  deriving Repr, DecidableEq, Inhabited

namespace Arguments

/-! ## Switches -/

/-- What a switch is for. -/
inductive Role where
  | help
  | version
  | flag
  /-- It takes a value that meets a condition. -/
  | setting (accepts : String → Bool)

/-- A switch. -/
structure Switch where
  name : String
  letter : Option Char
  role : Role

/-- What was found on a command line. -/
structure Found where
  flags : List String := []
  settings : List (String × String) := []
  operands : List String := []
  deriving Inhabited

/-- Why reading ends before the last word. -/
inductive Stop where
  | misuse
  | help
  | version
  deriving Repr, DecidableEq

namespace Found

/-- Takes a value for a switch.  Each switch takes one only. -/
def addSetting (f : Found) (s : Switch) (value : String) : Except Stop Found :=
  match s.role with
  | .setting accepts =>
      if accepts value && (f.settings.lookup s.name).isNone then
        .ok { f with settings := f.settings ++ [(s.name, value)] }
      else .error .misuse
  | _ => .error .misuse

/-- Takes a switch without a value. -/
def addFlag (f : Found) (s : Switch) : Except Stop Found :=
  match s.role with
  | .help => .error .help
  | .version => .error .version
  | .flag =>
      if f.flags.contains s.name then .error .misuse
      else .ok { f with flags := f.flags ++ [s.name] }
  | .setting _ => .error .misuse

/-- Takes an operand, if there is room for one more. -/
def addOperand (f : Found) (room : Nat) (word : String) : Except Stop Found :=
  if f.operands.length < room then .ok { f with operands := f.operands ++ [word] }
  else .error .misuse

end Found

/-- The text after a sign of equality in front. -/
def afterEquals (cs : List Char) : List Char :=
  match cs with
  | '=' :: rest => rest
  | _ => cs

/-- Reads the letters of a word.  A switch whose value is still to come is handed on. -/
def readLetters (known : List Switch) : List Char → Found → Except Stop (Found × Option Switch)
  | [], f => .ok (f, none)
  | c :: rest, f =>
      match known.find? fun s => s.letter == some c with
      | none => .error .misuse
      | some s =>
          match s.role with
          | .setting _ =>
              if rest.isEmpty then .ok (f, some s)
              else (f.addSetting s (String.ofList (afterEquals rest))).map fun f => (f, none)
          | _ => do readLetters known rest (← f.addFlag s)

/-- Reads a long name, perhaps with a value.  A switch whose value is still to come is handed on. -/
def readName (known : List Switch) (text : List Char) (f : Found) :
    Except Stop (Found × Option Switch) :=
  let name := String.ofList (text.takeWhile (· != '='))
  let value := text.dropWhile (· != '=')
  match known.find? fun s => s.name == name with
  | none => .error .misuse
  | some s =>
      match s.role, value with
      | .setting _, [] => .ok (f, some s)
      | .setting _, _ => (f.addSetting s (String.ofList (afterEquals value))).map fun f => (f, none)
      | _, [] => (f.addFlag s).map fun f => (f, none)
      | _, _ => .error .misuse

/-- Does a word begin with a hyphen, without being one? -/
def isSwitch (word : String) : Bool := word.startsWith "-" && word != "-"

/-- Reads a word that begins with a hyphen. -/
def readSwitch (known : List Switch) (word : String) (f : Found) :
    Except Stop (Found × Option Switch) :=
  match word.toList with
  | '-' :: '-' :: text => readName known text f
  | _ :: letters => readLetters known letters f
  | [] => .error .misuse

/-- Reads the words of a command.  `pending` is a switch whose value comes next. -/
def readWords (known : List Switch) (room : Nat) :
    (pending : Option Switch) → List String → Found → Except Stop Found
  | none, [], f => .ok f
  | some _, [], _ => .error .misuse
  | some s, word :: rest, f => do
      if isSwitch word then .error .misuse
      readWords known room none rest (← f.addSetting s word)
  | none, word :: rest, f => do
      if word == "--" then rest.foldlM (fun f word => f.addOperand room word) f
      else if isSwitch word then
        let (f, pending) ← readSwitch known word f
        readWords known room pending rest f
      else readWords known room none rest (← f.addOperand room word)

/-! ## Commands -/

/-- A number that fits a machine word, with a sign of plus perhaps. -/
def count? (text : String) : Option Nat :=
  let digits := match text.toList with
    | '+' :: rest => rest
    | cs => cs
  if digits.isEmpty || !digits.all Char.isDigit then none
  else
    let n := digits.foldl (fun n c => 10 * n + (c.toNat - '0'.toNat)) 0
    if n < 2 ^ 64 then some n else none

/-- Switches that every command has. -/
def everywhere : List Switch :=
  [⟨"log-json", none, .flag⟩, ⟨"help", some 'h', .help⟩, ⟨"version", some 'V', .version⟩]

/-- Switches that say where a configuration comes from. -/
def sourceSwitches : List Switch :=
  [⟨"config", some 'c', .setting fun path => !path.isEmpty⟩,
    ⟨"profile", some 'p', .setting fun _ => true⟩]

/-- Switches that say how a script is run. -/
def runSwitches : List Switch :=
  [⟨"concurrency", none, .setting fun n => (count? n).isSome⟩,
    ⟨"iterations", none, .setting fun n => (count? n).isSome⟩,
    ⟨"arg", none, .setting fun _ => true⟩]

/-- Where a configuration comes from. -/
def Found.source (f : Found) : ConfigSource :=
  ⟨f.settings.lookup "config", f.settings.lookup "profile"⟩

/-- The number that was given for a switch; 1 if there is none. -/
def Found.count (f : Found) (name : String) : Nat :=
  ((f.settings.lookup name).bind count?).getD 1

/-- The request to run a script. -/
def Found.run (f : Found) : Invocation :=
  match f.operands with
  | [script] =>
      if script.isEmpty then .misuse
      else .run {
        script
        source := f.source
        concurrency := f.count "concurrency"
        iterations := f.count "iterations"
        argument := f.settings.lookup "arg" }
  | _ => .misuse

/-- The name of the program. -/
def programName : String := "spellpool"

/-- What it means that reading ended early. -/
def Stop.invocation (name : String) : Stop → Invocation
  | .misuse => .misuse
  | .help => .help
  | .version => .version name

/-- Reads the words after the name of a command. -/
def readCommand (name : String) (words : List String) : Invocation :=
  let full := programName ++ "-" ++ name
  match name with
  | "run" =>
      match readWords (runSwitches ++ sourceSwitches ++ everywhere) 1 none words {} with
      | .ok f => f.run
      | .error stop => stop.invocation full
  | "config" =>
      match readWords (sourceSwitches ++ everywhere) 0 none words {} with
      | .ok f => .config f.source
      | .error stop => stop.invocation full
  | "help" => if words.isEmpty || [["run"], ["config"], ["help"]].contains words then .help else .misuse
  | _ => .misuse

/-- Reads the words up to the name of a command, and then those of the command. -/
def readProgram : List String → Found → Invocation
  | [], _ => .misuse
  | word :: rest, f =>
      if isSwitch word then
        match readSwitch everywhere word f with
        | .ok (f, _) => readProgram rest f
        | .error stop => stop.invocation programName
      else readCommand word rest

end Arguments

/-- What a command line asks for. -/
def Invocation.ofWords (words : List String) : Invocation := Arguments.readProgram words {}

end ScriptPool
