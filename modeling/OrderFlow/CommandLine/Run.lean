import OrderFlow.Collector.Pass
import OrderFlow.CommandLine.Arguments
import OrderFlow.Store.Disk

/-!
# Runs of the command line

A run reads its arguments and its settings and makes one pass. It ends well with a table on its
output. A failure that a pass reports on purpose is logged and ends the run with an exit code;
any other failure goes through.
-/

namespace OrderFlow

/-- What a run finds: its variables, the time, the venue and the disk. -/
structure RunInput where
  arguments : List String
  environment : Environment
  now : Instant
  transport : Transport

/-- What a run that read its arguments leaves behind. -/
structure RunRecord where
  exit : Nat
  level : Int
  lines : List String
  logged : Option Failure
  sent : List Request

/-- How a run ends. -/
inductive RunEnd
  | arguments (exit : Nat)
  | finished (record : RunRecord)
  | broken (failure : Failure)

namespace RunInput

/-- The exit code of a pass that failed. -/
def failedExit : Nat := 1

/-- The settings of a run, the store that they name, and the account. -/
def prepare (r : RunInput) (d : Disk) :
    Except Failure (Settings × DatabaseAddress × Store) := do
  let settings ← Settings.ofEnvironment r.environment []
  let address ← DatabaseAddress.check settings.databaseUrl
  return (settings, address, ← d.openStore address)

/-- The pass of a run. -/
def pass (r : RunInput) (a : Arguments) (d : Disk) :
    Disk × List Request × Except Failure PassReport :=
  match r.prepare d with
  | .error f => (d, [], .error f)
  | .ok (settings, address, store) =>
    match settings.account with
    | none =>
      (d.keep address store, [],
        .error (.configuration (.settingMissing Settings.accountVariable)))
    | some account =>
      let around : Surroundings := ⟨.environment r.environment, r.now, r.transport⟩
      let (c, sent, outcome) :=
        (Collector.start settings account false store).pass around
          ⟨none, a.forceRefresh, none, []⟩
      (d.keep address c.store, sent, outcome)

/-- The disk after a run, and how the run ends. -/
def run (r : RunInput) (d : Disk) : Disk × RunEnd :=
  match Arguments.read r.arguments with
  | .error exit => (d, .arguments exit)
  | .ok a =>
    let (d, sent, outcome) := r.pass a d
    match outcome with
    | .ok report => (d, .finished ⟨0, a.level, report.lines, none, sent⟩)
    | .error f =>
      if f.isCollection then (d, .finished ⟨failedExit, a.level, [], some f, sent⟩)
      else (d, .broken f)

end RunInput

end OrderFlow
