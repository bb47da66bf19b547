import OrderFlow.Credential.Provider

/-!
# Access to the order book

An account holds the credential that its provider last handed out. A request uses the held
credential while it is fresh and asks for another one otherwise; what is handed out is held
only if it can be used.
-/

namespace OrderFlow

/-- An account, the scope that it needs, and the credential that it holds. -/
structure Access where
  account : AccountId
  scope : String
  held : Option Credential

namespace Access

/-- The scope that reading a structure's market needs. -/
def marketScope : String := "esi-markets.structure_markets.v1"

/-- An account that holds no credential. -/
def start (account : AccountId) (scope : String) : Access :=
  ⟨account, scope, none⟩

/-- A credential that can be used now, or why it cannot. -/
def usable (a : Access) (now : Instant) (c : Option Credential) : Except Failure Credential := do
  let fail {α : Type} (fault : ConfigurationFault) : Except Failure α :=
    .error (.configuration fault)
  let some c := c | fail (.credentialMissing a.account.val)
  if !c.scopes.contains a.scope then fail (.scopeMissing a.account.val a.scope)
  if (c.refreshToken.getD "").isEmpty then fail (.refreshTokenMissing a.account.val)
  if ← c.isFresh (.ofInstant now) then return c
  else fail (.credentialExpired a.account.val c.expiresAt.text)

/-- A credential asked from the provider; it is held if it can be used. -/
def refresh (a : Access) (provider : CredentialProvider) (now : Instant) :
    Access × Except Failure Credential :=
  match (provider.credential? now a.account).bind (a.usable now) with
  | .ok c => ({ a with held := some c }, .ok c)
  | .error f => (a, .error f)

/-- An account that forgot its credential. -/
def drop (a : Access) : Access :=
  { a with held := none }

/-- A credential that was seen to be held, while it is fresh, or another one. Whether it is
still held does not matter. -/
def confirm (a : Access) (provider : CredentialProvider) (now : Instant)
    (seen : Option Credential) : Access × Except Failure Credential :=
  match seen with
  | none => a.refresh provider now
  | some c =>
    match c.isFresh (.ofInstant now) with
    | .ok true => (a, .ok c)
    | .ok false => a.refresh provider now
    | .error f => (a, .error f)

/-- The credential for a request: the held one while it is fresh, or another one. -/
def authorize (a : Access) (provider : CredentialProvider) (now : Instant) :
    Access × Except Failure Credential :=
  a.confirm provider now a.held

end Access

end OrderFlow
