import VaultIndex.Program.Basic

/-!
# The executable

Files, environment, clock and output of the machine that the program runs on. No node and no chat
can be reached from here: what is asked of them is answered as unreachable.
-/

namespace VaultIndex.Machine

/-- Why the machine refused an operation on a file. -/
def fileError : IO.Error → FileError
  | .noFileOrDirectory .. => .notFound
  | .inappropriateType _ 20 _ => .notADirectory
  | .inappropriateType _ 21 _ => .isADirectory
  | e => .other (toString e)

def readText (path : String) : IO (Except FileError String) := do
  try return fileText (← IO.FS.readBinFile path)
  catch e => return .error (fileError e)

def writeText (path content : String) : IO (Except FileError Unit) := do
  try return .ok (← IO.FS.writeFile path content)
  catch e => return .error (fileError e)

/-- The present, which is when a new file was last changed. -/
def now : IO Timestamp := do
  let (_, path) ← IO.FS.createTempFile
  let time := (← path.metadata).modified
  IO.FS.removeFile path
  return ⟨time.sec.toNat * Timestamp.nanosecondsPerSecond + time.nsec.toNat⟩

/-- The longest time that is slept at once, in milliseconds. -/
def longestSleep : Nat := 1000000000

/-- Sleeps for so many milliseconds. -/
def sleep (milliseconds : Nat) : IO Unit := do
  if milliseconds ≤ longestSleep then IO.sleep (UInt32.ofNat milliseconds)
  else
    IO.sleep (UInt32.ofNat longestSleep)
    sleep (milliseconds - longestSleep)
termination_by milliseconds
decreasing_by simp [longestSleep] at *; omega

/-- The machine as a host of the program; it is stopped from outside. -/
def host : Host IO where
  readText := readText
  writeText := writeText
  print s := IO.println s
  log line := IO.eprintln line.text
  send _ _ message := IO.eprintln (LogLine.mk .error ("Failed to send message: " ++ message)).text
  node _ _ := return .unreachable
  isCancelled := return false
  now := now
  pause d := do
    sleep (d.nanoseconds / 1000000)
    return false

/-- The variables of the environment that are options. -/
def environment : IO (List (String × String)) := do
  let mut found := []
  for flag in CommandLine.Flag.all do
    match ← IO.getEnv flag.variableName with
    | some value => found := found ++ [(flag.variableName, value)]
    | none => pure ()
  return found

/-- A line on how the program is called. -/
def usage : String :=
  "Usage: vault-index " ++ " ".intercalate
    (CommandLine.Flag.all.map fun flag => "[--" ++ flag.name ++ " VALUE]")

/-- More passes than any run makes. -/
def passLimit : Nat := UInt64.size

/-- What is said about a failure, behind what the program was doing. -/
def explanation : Program.Failure → String
  | .telemetry => ""
  | .registryFile cause | .snapshotFile _ cause | .report _ cause => ": " ++ cause.message
  | .registryText (.invalid cause) => ": " ++ cause.message
  | .registryText (.parse cause) | .snapshotText cause => (cause.message?.map (": " ++ ·)).getD ""

end VaultIndex.Machine

open VaultIndex in
def main (arguments : List String) : IO UInt32 := do
  match CommandLine.read arguments (← Machine.environment) with
  | .error .displayVersion =>
    IO.println "vault-index 0.1.0"
    return 0
  | .error refusal =>
    if refusal.exitCode = 0 then IO.println Machine.usage else IO.eprintln Machine.usage
    return UInt32.ofNat refusal.exitCode
  | .ok options =>
    match ← (Program.run Machine.host options Machine.passLimit).run' {} with
    | some (.error failure) =>
      IO.eprintln ("Error: " ++ failure.context ++ Machine.explanation failure)
      return 1
    | _ => return 0
