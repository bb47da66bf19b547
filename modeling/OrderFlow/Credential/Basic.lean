import OrderFlow.Check.Scalar
import OrderFlow.Check.Time

/-!
# Credentials

A credential lets an account read the order book until it expires. It counts as expired a
minute before it does.
-/

namespace OrderFlow

/-- A credential of an account. -/
structure Credential where
  account : AccountId
  accessToken : String
  expiresAt : Stamp
  scopes : List String
  refreshToken : Option String
deriving DecidableEq

namespace Credential

open Checked

/-- The time before its expiry from which on a credential counts as expired. -/
def expiryBuffer : Duration := .seconds 60

/-- A time of expiry; without an offset it is in UTC. -/
def checkExpiry (v : Value) : Checked Stamp :=
  (Check.time v).map Stamp.assumeUtc

/-- The credential of a record. -/
def check (v : Value) : Checked Credential :=
  match v with
  | .obj _ =>
    Credential.mk <$> required v "account_id" (Check.id .account)
      <*> required v "access_token" Check.text
      <*> required v "expires_at" checkExpiry
      <*> optional v "scopes" [] (list Check.text)
      <*> optional v "refresh_token" none (nullable Check.text)
  | _ => defect .notARecord

/-- A credential that does not expire within the buffer from now. -/
def isFresh (c : Credential) (now : Stamp) : Except Failure Bool := do
  let some limit := now.add? expiryBuffer | throw .overflow
  if limit.offset.isNone then throw .mistyped
  return decide (limit.point < c.expiresAt.point)

/-- The header by which a request shows the credential. -/
def header (c : Credential) : String :=
  "Bearer " ++ c.accessToken

end Credential

end OrderFlow
