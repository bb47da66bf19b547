import OrderFlow.Log.Template

/-!
# Logs

Loggers form a tree by the points in their names, with the root at its top. A logger that has
no level takes that of the next one above it. A record is written by the handlers of its logger
and of all loggers above; each handler has a level of its own.
-/

namespace OrderFlow.Log

/-- Where a handler writes. -/
inductive Sink
  | console
  | file (path : String)
deriving DecidableEq

/-- A handler and the least level of the records that it writes. -/
structure Handler where
  sink : Sink
  level : Int
deriving DecidableEq

/-- A logger; level zero stands for none. -/
structure Logger where
  level : Int
  handlers : List Handler
deriving DecidableEq

/-- The name of the root. -/
def rootName : String := "root"

/-- Loggers by name; those that are not listed are as they started. -/
abbrev Loggers := List (String × Logger)

/-- The level of records that say what goes on. -/
def info : Int := 20

/-- The level of records for those who look for a fault. -/
def debug : Int := 10

/-- The level that the root starts with, that of warnings. -/
def rootLevel : Int := 30

/-- The name of a logger; nothing and the empty name stand for the root. -/
def loggerName : Option String → String
  | some name => if name.isEmpty then rootName else name
  | none => rootName

/-- A logger that nothing was set on. -/
def unset (name : String) : Logger :=
  ⟨if name = rootName then rootLevel else 0, []⟩

/-- The logger of a name. -/
def find (ls : Loggers) (name : String) : Logger :=
  (ls.lookup name).getD (unset name)

/-- A logger with its level and its handlers, unless it has handlers already. -/
def setup (ls : Loggers) (name : String) (level : Int) (file : Option String) : Loggers :=
  if (find ls name).handlers.isEmpty then
    let files := file.toList.map fun path => ⟨.file path, level⟩
    (name, ⟨level, ⟨.console, level⟩ :: files⟩) :: ls.filter (·.1 ≠ name)
  else ls

/-- The names of a logger and of those above it up to the root. -/
def lineage (name : String) : List String :=
  if name = rootName then [rootName]
  else
    let parts := name.toList.splitOn '.'
    let names := (List.range parts.length).map fun n =>
      String.ofList (['.'].intercalate (parts.take (parts.length - n)))
    names ++ [rootName]

/-- The least level of the records that a logger takes. -/
def effectiveLevel (ls : Loggers) (name : String) : Int :=
  ((lineage name).findSome? fun n =>
    let level := (find ls n).level
    if level = 0 then none else some level).getD 0

/-- The name of a level. -/
def levelName (level : Int) : String :=
  if level = 50 then "CRITICAL"
  else if level = 40 then "ERROR"
  else if level = 30 then "WARNING"
  else if level = info then "INFO"
  else if level = debug then "DEBUG"
  else if level = 0 then "NOTSET"
  else "Level " ++ Text.intText level

/-- The lines of a record of a time. -/
def recordLines (time name : String) (level : Int) (message : String) : List String :=
  let text := time ++ " - " ++ name ++ " - " ++ levelName level ++ " - " ++ message
  (text.toList.splitOn '\n').map String.ofList

/-- The least level that a record can have. -/
def lowest : Int := 1

/-- Where the lines of a record are written, in order. -/
def write (ls : Loggers) (time name : String) (level : Int) (template : String)
    (args : List Value) : List (Sink × List String) :=
  if level < max lowest (effectiveLevel ls name) then []
  else
    match Template.fill template args with
    | none => []
    | some message =>
      ((lineage name).flatMap fun n => (find ls n).handlers).filterMap fun h =>
        if h.level ≤ level then some (h.sink, recordLines time name level message) else none

/-- The files that the handlers of all loggers write. -/
def files (ls : Loggers) : List String :=
  (ls.flatMap fun entry => entry.2.handlers.filterMap fun h =>
    match h.sink with
    | .file path => some path
    | .console => none).eraseDups

end OrderFlow.Log
