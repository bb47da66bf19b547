import OrderFlow.CommandLine.Run
import Std.Time.DateTime.Timestamp

/-!
# The command line

One run of the collector. The pages of the order book are read from standard input, the body of
one page on each line, and a database lasts as long as the run.
-/

namespace OrderFlow.Main

/-- The variables that a run looks at. -/
def knownVariables : List String :=
  Settings.enabledVariable :: Settings.settingOfVariable.map (·.1)
    ++ [CredentialProvider.accessTokenVariable, CredentialProvider.refreshTokenVariable,
      CredentialProvider.scopesVariable, CredentialProvider.expiryVariable]

/-- The file with more variables. -/
def environmentFile : String := ".env"

/-- The variables of a run. -/
def environment : IO Environment := do
  let mut env : Environment := []
  for name in knownVariables do
    if let some value ← IO.getEnv name then
      env := env.set name value
  try
    return env.withFile (← IO.FS.readFile environmentFile)
  catch _ =>
    return env

/-- The instant of the clock. -/
def clock : IO Instant := do
  let nanos : Int := (← Std.Time.Timestamp.now).toNanosecondsSinceUnixEpoch.val
  return (Instant.ofMicros? (Check.unixEpoch + nanos / 1000)).getD ⟨0, by decide⟩

/-- The lines of standard input. -/
partial def inputLines (input : IO.FS.Stream) : IO (List String) := do
  let line ← input.getLine
  if line.isEmpty then return []
  return line :: (← inputLines input)

/-- A venue whose pages have the given bodies. -/
def transportOf (bodies : List String) : Transport := fun r =>
  let number := ((r.params.getD []).lookup "page").bind String.toNat?
  match bodies[number.getD 1 - 1]? with
  | some body =>
    .response ⟨200, [(Connection.pageCountHeader, Text.natText bodies.length)], body⟩
  | none => .response ⟨404, [], ""⟩

/-- What a failure says. -/
def describe (f : Failure) : String :=
  f.message?.getD "the result cannot be represented"

/-- What a run writes, and its exit code. -/
def conclude : RunEnd → IO UInt32
  | .arguments exit => do
    IO.eprintln "usage: orderflow [-h] [--force-refresh] [--debug]"
    return exit.toUInt32
  | .finished r => do
    for line in r.lines do
      IO.println line
    for f in r.logged do
      IO.eprintln ("Structure order collection failed: " ++ describe f)
    return r.exit.toUInt32
  | .broken f => do
    IO.eprintln (describe f)
    return 1

/-- One run. -/
def runOnce (arguments : List String) : IO UInt32 := do
  let bodies ←
    match Arguments.read arguments with
    | .ok _ => inputLines (← IO.getStdin)
    | .error _ => pure []
  let input : RunInput := ⟨arguments, ← environment, ← clock, transportOf bodies⟩
  conclude (input.run ⟨[""], []⟩).2

end OrderFlow.Main

def main (arguments : List String) : IO UInt32 :=
  OrderFlow.Main.runOnce arguments
