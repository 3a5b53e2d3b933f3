import StepScript.Tool

/-!
# The program

Reads the command line, and connects the tool with files, output streams and the clock.
-/

namespace StepScript

/-- Reads a file. -/
def readTextFile (path : String) : IO (Except ReadFailure String) := do
  try
    match String.fromUTF8? (← IO.FS.readBinFile path) with
    | some text => return .ok text
    | none => return .error .notText
  catch
    | .noFileOrDirectory .. => return .error .missing
    | .inappropriateType .. => return .error .isDirectory
    | e => return .error (.other (toString e))

/-- Writes what the tool has to say. -/
def writeOutputs (outputs : List Output) : IO Unit := do
  for output in outputs do
    match output with
    | .out text => IO.print text
    | .err text => IO.eprint text

/-- Runs a job until it is finished. -/
partial def finish (started : Nat) : Stage → IO Nat
  | .finished code => return code
  | .running job => do
    let elapsed := (← IO.monoNanosNow) - started
    -- A cycle that never ends never gets here, so that nothing is given only if one breaks off.
    match (job.wait (elapsed - job.store.host.machine.now)).advance with
    | none => return Tool.breakdown
    | some (outputs, stage) =>
      writeOutputs outputs
      match stage with
      | .running job => if 0 < job.delay then IO.sleep (min job.delay (Nat.pow 2 32 - 1)).toUInt32
      | .finished _ => pure ()
      finish started stage

/-- Whether styles are shown: as the environment says, or else on a terminal. -/
def showStyles : IO Bool := do
  if let some v ← IO.getEnv "CLICOLOR_FORCE" then
    if v != "0" then return true
  if (← IO.getEnv "NO_COLOR").isSome then return false
  (← IO.getStdout).isTty

end StepScript

open StepScript in
/-- The program. -/
def main (arguments : List String) : IO UInt32 := do
  match Invocation.parse? arguments with
  | none =>
    IO.eprintln "error: invalid command line"
    return 2
  | some invocation =>
    let generator := mkStdGen (← IO.rand 0 (Nat.pow 2 64 - 1))
    let started ← IO.monoNanosNow
    let (outputs, stage) ←
      invocation.start readTextFile ⟨⟨0, generator⟩, []⟩ (.terminal (← showStyles))
    writeOutputs outputs
    return (← finish started stage).toUInt32
