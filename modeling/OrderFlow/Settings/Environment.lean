import OrderFlow.Settings.EnvFile

/-!
# Environments

The variables that a run is given. A file adds variables that are not set, even if those that
are set are empty. References in a value of the file see the variables that are set first, and
then the values that the file bound before.
-/

namespace OrderFlow

/-- Variables with their values. -/
abbrev Environment := List (String × String)

namespace Environment

/-- The value of a variable. -/
def get? (env : Environment) (name : String) : Option String :=
  env.lookup name

/-- The value of a variable, empty if it is not set. -/
def get (env : Environment) (name : String) : String :=
  (env.get? name).getD ""

/-- The value of a variable without blanks around it. -/
def trimmed (env : Environment) (name : String) : String :=
  Text.trimmed Text.isBlank (env.get name)

/-- An environment with one variable set. -/
def set (env : Environment) (name value : String) : Environment :=
  (name, value) :: env.filter (·.1 ≠ name)

/-- The values of a file's bindings; `bound` holds those of the bindings before. -/
def evaluate (env : Environment) (bound : List EnvFile.Binding) :
    List EnvFile.Binding → List EnvFile.Binding
  | [] => bound
  | (name, v) :: rest =>
    let find (x : String) : Option String :=
      match env.get? x with
      | some v => some v
      | none => (bound.lookup x).map (·.getD "")
    let v := v.map fun s =>
      String.ofList (EnvFile.expand find s.toList (s.length + 1))
    evaluate env ((name, v) :: bound.filter (·.1 ≠ name)) rest

/-- An environment with the variables of a file added. -/
def withFile (env : Environment) (text : String) : Environment :=
  (evaluate env [] (EnvFile.parse text)).foldl (fun env' b =>
    match b.2 with
    | some v => if (env.get? b.1).isSome then env' else env'.set b.1 v
    | none => env') env

end Environment

end OrderFlow
