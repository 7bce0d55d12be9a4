import EventEngine.Program.Run

/-!
# The program

Reads the command line, the environment and the settings, runs the subsystems, and prints what they
log at the moments at which they log it.
-/
namespace EventEngine.Main

/-- The largest number of moves that the threads are given to come to rest. -/
def patience : Nat := 1000000

/-- What stands at a path. -/
def readState (path : String) : IO FileState := do
  try
    return .file (← IO.FS.readBinFile path)
  catch e => match e with
    | .noFileOrDirectory _ _ _ => return .missing
    | e => return .unreadable e.toString

/-- The variables that a text refers to. -/
def readEnvironment (state : FileState) : IO Environment := do
  match state.text "" with
  | .error _ => return {}
  | .ok text =>
    let mut entries := []
    for name in Expansion.references text.toList do
      let name := String.ofList name
      if let some value ← IO.getEnv name then entries := (name, value) :: entries
    return { entries }

/-- A log line with its time. -/
def logText (t : Instant) (line : LogLine) : String :=
  s!"{(WallTime.ofInstant t).text} {line.level.text} walletcore: {line.message}\n"

/-- Put out what a run does at its moments, and append log lines to the log file if there is one. -/
def putOut (file : Option IO.FS.Handle) : Instant → List (Instant × Output) → IO Unit
  | _, [] => return
  | now, (t, out) :: rest => do
    if now < t then IO.sleep (.ofNat ((t.since now).nanos / 1000000))
    match out with
    | .log line =>
      IO.print (logText t line)
      if let some file := file then file.putStr (logText t line)
    | .text s => IO.println s
    putOut file t rest

/-- The log file in a directory, which is made if it is missing. -/
def openLog (dir : String) : IO IO.FS.Handle := do
  IO.FS.createDirAll dir
  IO.FS.Handle.mk (dir ++ "/" ++ logFileName (.ofInstant .start)) .append

/-- Run as a command line asks for. -/
def run (line : CommandLine) : IO UInt32 := do
  let file ← line.logDir.mapM openLog
  let state ← match line.config with
    | some path => readState path
    | none => pure .missing
  let outcome := Outcome.ofCommandLine patience line (← readEnvironment state) state
  putOut file .start outcome.output
  if let some complaint := outcome.ending.complaint then IO.eprintln complaint
  return .ofNat outcome.ending.exitCode

end EventEngine.Main

/-- Read the command line and run, or say why not. -/
def main (arguments : List String) : IO UInt32 := do
  match EventEngine.CommandLine.ofArguments arguments (← IO.getEnv "WALLETCORE_CONFIG") with
  | .ok line => EventEngine.Main.run line
  | .error refusal =>
    if refusal.isAnswer then IO.print refusal.message else IO.eprint refusal.message
    return .ofNat refusal.exitCode
