import OrderFlow.Log

/-!
# Arguments

The command line has options only. An option may be shortened as long as one option alone
begins with what is left of it. Arguments are told apart first, so that a shortened option that
is ambiguous ends the run before any other; then they are taken in turn. A call for help ends
the run at once, an argument that is no option only when all have been taken.
-/

namespace OrderFlow

/-- What the command line asks for. -/
structure Arguments where
  forceRefresh : Bool
  debug : Bool
deriving DecidableEq

namespace Arguments

/-- What an option stands for. -/
inductive Flag
  | help
  | forceRefresh
  | debug
deriving DecidableEq

/-- The options with a name that may be shortened. -/
def longNames : List (List Char × Flag) :=
  [("--help".toList, .help), ("--force-refresh".toList, .forceRefresh),
   ("--debug".toList, .debug)]

/-- The name of the option that has a short one. -/
def shortHelp : List Char := "-h".toList

/-- An argument as it was told apart: an option with a value attached to it, or a stray one. -/
inductive Word
  | long (flag : Flag) (attached : Bool)
  | short (tail : List Char)
  | stray

/-- The exit code of a call for help. -/
def helpExit : Nat := 0

/-- The exit code of arguments that are not understood. -/
def errorExit : Nat := 2

/-- An argument with two leading dashes, which may be shortened and have a value attached. -/
def longWord (cs : List Char) : Except Nat Word :=
  let name := cs.takeWhile (· ≠ '=')
  let attached := name.length < cs.length
  let fits := longNames.filter fun option =>
    option.1 == name || name.isPrefixOf option.1
  match fits.find? (·.1 == name), fits with
  | some option, _ => .ok (.long option.2 attached)
  | none, [option] => .ok (.long option.2 attached)
  | none, [] => .ok .stray
  | none, _ => .error errorExit

/-- An argument told apart. -/
def word (s : String) : Except Nat Word :=
  let cs := s.toList
  if cs.take 2 = ['-', '-'] then longWord cs
  else if cs.take 2 = shortHelp then .ok (.short (cs.drop 2))
  else .ok .stray

/-- All arguments told apart; behind two dashes alone all are stray. -/
def words : List String → Except Nat (List Word)
  | [] => .ok []
  | s :: rest =>
    if s = "--" then .ok [.stray]
    else do
      let w ← word s
      return w :: (← words rest)

/-- What is attached to the short option for help has to be that option again and again. An
equals sign may come first if an option follows. -/
def shortExit (tail : List Char) : Nat :=
  let letters := match tail with
    | '=' :: c :: cs => c :: cs
    | tail => tail
  if letters.all (· == 'h') then helpExit else errorExit

/-- Arguments taken in turn; `stray` tells that one was no option. -/
def take (a : Arguments) (stray : Bool) : List Word → Except Nat Arguments
  | [] => if stray then .error errorExit else .ok a
  | .stray :: rest => take a true rest
  | .short tail :: _ => .error (shortExit tail)
  | .long _ true :: _ => .error errorExit
  | .long .help false :: _ => .error helpExit
  | .long .forceRefresh false :: rest => take { a with forceRefresh := true } stray rest
  | .long .debug false :: rest => take { a with debug := true } stray rest

/-- The arguments of a command line, or the code with which it ends the run. -/
def read (args : List String) : Except Nat Arguments := do
  take ⟨false, false⟩ false (← words args)

/-- The level from which on records are logged. -/
def level (a : Arguments) : Int :=
  if a.debug then Log.debug else Log.info

end Arguments

end OrderFlow
