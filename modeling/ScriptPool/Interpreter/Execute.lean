import ScriptPool.Interpreter.Basic

/-!
# Executing a script with values of the host

Values are bound to globals, the script is run, and its first result is handed to the host.
-/

set_option autoImplicit false

namespace ScriptPool
namespace Interpreter

/-- Binds values to globals in turn, up to the first failure. -/
def bind (i : Interpreter) (c : Converter) :
    List (String × Value) → Transition (Except ExecutionError Unit)
  | [] => pure (.ok ())
  | (name, v) :: rest => do
      match ← World.fromValue c i.state v with
      | .error e => pure (.error (.conversion e))
      | .ok g =>
          match ← i.setGlobal name g with
          | .error e => pure (.error (.interpreter e))
          | .ok () => i.bind c rest

/-- Binds values to globals, runs a script, and gives its first result. -/
def execute (i : Interpreter) (c : Converter) (script : Script) (globals : List (String × Value)) :
    Transition (Except ExecutionError Value × Interpreter) := do
  match ← i.bind c globals with
  | .error e => pure (.error e, i)
  | .ok () =>
      match ← i.run script with
      | (.error e, i) => pure (.error (.interpreter e), i)
      | (.ok results, i) =>
          let v ← World.toValue c i.state (results.headD .nil)
          pure (v.mapError .conversion, i)

end Interpreter
end ScriptPool
