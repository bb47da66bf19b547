import OrderFlow.Check.Scalar
import OrderFlow.Settings.Environment
import OrderFlow.Time.Instant
import OrderFlow.Url

/-!
# Settings

What a collector is told: which venue to poll, with which account, how often, how long to wait,
and where to store. Settings come from the environment or from given values, and are checked
as a whole; `Settings.forPass` checks again what a single pass needs.
-/

namespace OrderFlow

/-- The settings of a collector. -/
structure Settings where
  enabled : Bool
  venue : Option VenueId
  account : Option AccountId
  pollMinutes : Int
  expiryWindowMinutes : Int
  baseUrl : Url
  apiVersion : Url
  requestTimeout : Binary64
  commitTimeout : Binary64
  maxPageWorkers : Int
  lockTimeout : Binary64
  databaseUrl : String

namespace Settings

open Checked

/-- The variable of the venue. -/
def venueVariable : String := "STRUCTURE_GATHER_STRUCTURE_ID"

/-- The variable of the account. -/
def accountVariable : String := "STRUCTURE_GATHER_CHARACTER_ID"

/-- The variable that switches notifications on. -/
def enabledVariable : String := "STRUCTURE_GATHER_ENABLED"

/-- The variables of the other settings, each with the setting it gives. -/
def settingOfVariable : List (String × String) :=
  [(venueVariable, "venue_id"),
   (accountVariable, "account_id"),
   ("STRUCTURE_GATHER_POLL_MINUTES", "poll_minutes"),
   ("STRUCTURE_GATHER_EXPIRY_WINDOW_MINUTES", "expiry_window_minutes"),
   ("STRUCTURE_GATHER_API_URL", "base_url"),
   ("STRUCTURE_GATHER_API_VERSION", "api_version"),
   ("STRUCTURE_GATHER_REQUEST_TIMEOUT_SECONDS", "request_timeout_seconds"),
   ("STRUCTURE_GATHER_COMMIT_TIMEOUT_SECONDS", "commit_timeout_seconds"),
   ("STRUCTURE_GATHER_MAX_PAGE_WORKERS", "max_page_workers"),
   ("STRUCTURE_GATHER_LOCK_TIMEOUT_SECONDS", "lock_timeout_seconds"),
   ("STRUCTURE_GATHER_DATABASE_URL", "database_url")]

/-- The words that switch notifications on. -/
def truthy : List String := ["true", "1", "yes", "y"]

/-- A positive integer. -/
def positiveInt (v : Value) : Checked Int :=
  (Check.integer v).andThen fun n =>
    if n ≤ 0 then defect (.refused (.notPositive (Text.intText n))) else accepted n

/-- An integer that is not negative. -/
def nonNegativeInt (v : Value) : Checked Int :=
  (Check.integer v).andThen fun n =>
    if n < 0 then defect (.refused (.negative (Text.intText n))) else accepted n

/-- A floating point number that is not at most zero. -/
def positiveFloat (v : Value) : Checked Binary64 :=
  (Check.float v).andThen fun x =>
    if x.le .zero then defect (.refused (.notPositive x.text)) else accepted x

/-- A text that is not blank. -/
def nonBlank (v : Value) : Checked String :=
  (Check.text v).andThen fun s =>
    if s.toList.all Text.isBlank then defect (.refused .blank) else accepted s

/-- An address. -/
def address (v : Value) : Checked Url :=
  (Check.text v).map Url.mk

/-- A floating point number that is an integer. -/
def secondsOf (n : Int) : Binary64 := .ofInt n

/-- The settings of given values; one that is not given has its default. -/
def check (v : Value) : Checked Settings :=
  Settings.mk <$> optional v "enabled" false Check.truth
    <*> optional v "venue_id" none (nullable (Check.id .venue))
    <*> optional v "account_id" none (nullable (Check.id .account))
    <*> optional v "poll_minutes" 10 positiveInt
    <*> optional v "expiry_window_minutes" 360 nonNegativeInt
    <*> optional v "base_url" ⟨"https://esi.evetech.net"⟩ address
    <*> optional v "api_version" ⟨"latest"⟩ address
    <*> optional v "request_timeout_seconds" (secondsOf 30) positiveFloat
    <*> optional v "commit_timeout_seconds" (secondsOf 120) positiveFloat
    <*> optional v "max_page_workers" 8 positiveInt
    <*> optional v "lock_timeout_seconds" (secondsOf 300) positiveFloat
    <*> optional v "database_url" "sqlite:///structure_orders.db" nonBlank

/-- The values that an environment gives; a variable that is blank gives none. -/
def valuesOf (env : Environment) : List (String × Value) :=
  let given := settingOfVariable.filterMap fun (name, setting) =>
    let raw := env.trimmed name
    if raw.isEmpty then none else some (setting, Value.str raw)
  given ++ [("enabled", .bool (truthy.contains (Text.lower (env.trimmed enabledVariable))))]

/-- The settings of an environment, with some values given in place of its own. -/
def ofEnvironment (env : Environment) (overrides : List (String × Value)) :
    Except Failure Settings :=
  let values := overrides.foldl (fun fields f => Value.setField fields f.1 f.2) (valuesOf env)
  (check (.obj values)).toExcept fun issues => .configuration (.settingsInvalid issues)

/-- The tolerance around two observations within which an order is taken to have expired. -/
def expiryWindow (s : Settings) : Except Failure Duration :=
  match Duration.representable? (.minutes s.expiryWindowMinutes) with
  | some d => .ok d
  | none => .error .overflow

/-- The time between two passes. -/
def pollInterval (s : Settings) : Except Failure Duration :=
  match Duration.representable? (.minutes s.pollMinutes) with
  | some d => .ok d
  | none => .error .overflow

/-- The venue that a call means: the one it names, or the configured one. -/
def venueFor (s : Settings) (named : Option Int) : Option Int :=
  match named with
  | some 0 => s.venue.map fun id => id.val
  | some n => some n
  | none => s.venue.map fun id => id.val

/-- The venue and the account that a pass uses. -/
def forPass (s : Settings) (named : Option Int) : Except Failure (VenueId × AccountId) := do
  let some venue := s.venueFor named
    | throw (.configuration (.settingMissing venueVariable))
  let some account := s.account
    | throw (.configuration (.settingMissing accountVariable))
  return (← (Id.ofInt .venue venue).mapError .value, account)

end Settings

end OrderFlow
