import BridgeRewards.Command.Run
import Std.Time.DateTime

/-!
# The program

Reads the command line, the environment variables and the clock, does what is asked for with the
files of the system, and ends with the code of the outcome.
-/

set_option autoImplicit false

namespace BridgeRewards

/-- The cause of an error of the system. -/
def FileFault.ofSystem : IO.Error → FileFault
  | .noFileOrDirectory .. => notFound
  | .alreadyExists .. => alreadyExists
  | .inappropriateType _ 20 _ => notDirectory
  | .inappropriateType _ 21 _ => isDirectory
  | .invalidArgument _ 36 _ => nameTooLong
  | e => other (toString e)

/-- An action of the system on a path, with its error as a value. -/
def attempted {α : Type} (path : String) (action : IO α) : IO (Except FileFault α) := do
  match FileFault.ofPath? path with
  | some fault => return .error fault
  | none =>
    match ← action.toBaseIO with
    | .ok a => return .ok a
    | .error e => return .error (.ofSystem e)

instance : Files IO where
  read path := attempted path (IO.FS.readFile path)
  makeDirectory path := attempted path (IO.FS.createDirAll path)
  write path text := attempted path (IO.FS.writeFile path text)

/-- The present. -/
def present : IO Instant := do
  return ⟨(← Std.Time.Timestamp.now).toNanosecondsSinceUnixEpoch.val⟩

/-- The environment variables that commands look at. -/
def readEnvironment : IO Environment := do
  let values ← Environment.names.mapM fun name => return (name, ← IO.getEnv name)
  return fun name => (values.lookup name).join

end BridgeRewards

open BridgeRewards in
/-- Does what the command line asks for. -/
def main (arguments : List String) : IO UInt32 := do
  let environment ← readEnvironment
  match Invocation.ofArguments? environment arguments with
  | none =>
    IO.eprintln usage
    return 2
  | some invocation =>
    let outcome : Outcome ← invocation.run environment (← present)
    IO.print outcome.output
    IO.eprint outcome.warnings
    match outcome.failure with
    | none => return 0
    | some e =>
      IO.eprintln ("Error: " ++ e.message)
      return e.exitCode.toUInt32
