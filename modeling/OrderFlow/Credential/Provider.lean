import OrderFlow.Credential.Basic
import OrderFlow.Settings.Environment

/-!
# Credential providers

A provider hands out the credential of an account, if there is one: from those it holds, or
from the variables of an environment, which stand for whatever account asks.
-/

namespace OrderFlow

/-- Where credentials come from. -/
inductive CredentialProvider
  | held (credentials : List Credential)
  | environment (env : Environment)

namespace CredentialProvider

/-- The variable of the access token. -/
def accessTokenVariable : String := "STRUCTURE_GATHER_ACCESS_TOKEN"

/-- The variable of the refresh token. -/
def refreshTokenVariable : String := "STRUCTURE_GATHER_REFRESH_TOKEN"

/-- The variable of the scopes, which stand between blanks or commas. -/
def scopesVariable : String := "STRUCTURE_GATHER_TOKEN_SCOPES"

/-- The variable of the expiry. -/
def expiryVariable : String := "STRUCTURE_GATHER_TOKEN_EXPIRES_AT"

/-- The life of a credential whose expiry is not given. -/
def defaultLife : Duration := .minutes 20

/-- The scopes that a text lists. -/
def scopesOf (s : String) : List String :=
  (Text.words (s.toList.map fun c => if c = ',' then ' ' else c)).map String.ofList

/-- The value of a variable unless it is empty. -/
def nonEmpty (env : Environment) (name : String) : Option String :=
  (env.get? name).filter fun s => !s.isEmpty

/-- The credential that an environment gives to an account. -/
def fromEnvironment (env : Environment) (now : Instant) (account : AccountId) :
    Except Failure (Option Credential) := do
  let some token := env.get? accessTokenVariable | return none
  let some defaultExpiry := now.add? defaultLife | throw .overflow
  let expiry ← match env.get? expiryVariable with
    | none => pure (Stamp.ofInstant defaultExpiry)
    | some s =>
      ((Credential.checkExpiry (.str s)).under (.field "expires_at")).toExcept fun issues =>
        .configuration (.environmentInvalid issues)
  return some ⟨account, token, expiry, scopesOf (env.get scopesVariable),
    nonEmpty env refreshTokenVariable⟩

/-- The credential of an account. Of several that are held the last one counts. -/
def credential? (p : CredentialProvider) (now : Instant) (account : AccountId) :
    Except Failure (Option Credential) :=
  match p with
  | held credentials => .ok (credentials.reverse.find? fun c => c.account = account)
  | environment env => fromEnvironment env now account

/-- A provider with one more credential, which replaces that of its account. -/
def put (p : CredentialProvider) (c : Credential) : CredentialProvider :=
  match p with
  | held credentials => held (credentials ++ [c])
  | environment env => environment env

/-- A provider with more variables. -/
def addVariables (p : CredentialProvider) (more : Environment) : CredentialProvider :=
  match p with
  | held credentials => held credentials
  | environment env => environment (more.foldl (fun env f => env.set f.1 f.2) env)

end CredentialProvider

end OrderFlow
