import SaveNames.Command.Run

/-!
# The program

Reads the settings file that the command line names, if it names one, and prints the
transcript.
-/

open SaveNames

/-- What is found at a path. -/
def SaveNames.readFileState (path : String) : IO Settings.FileState := do
  try
    return .contents (← IO.FS.readBinFile path)
  catch
    | .noFileOrDirectory .. => return .absent
    | error => return .refused (toString error)

/-- The transcript of a command line. -/
def SaveNames.transcript (arguments : List String) : IO Command.Transcript := do
  match Command.Invocation.parse arguments with
  | .error stop => return stop.transcript
  | .ok invocation =>
    let file ← match invocation.config with
      | some path => readFileState path
      | none => pure .absent
    return invocation.run file

def main (arguments : List String) : IO UInt32 := do
  let transcript ← SaveNames.transcript arguments
  (← IO.getStdout).putStr transcript.stdout
  (← IO.getStderr).putStr transcript.stderr
  return transcript.exit.toUInt32
