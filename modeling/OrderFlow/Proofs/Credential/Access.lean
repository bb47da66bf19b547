import OrderFlow.Credential.Access
import OrderFlow.Proofs.Outcome

/-!
# How a credential is confirmed

`Access.confirm_cases` says all that confirming a credential does: the one that was seen is fresh,
or another one is handed out that can be used, or it fails and the account holds what it held.
-/

namespace OrderFlow

/-- Whether a credential is fresh cannot be told at the end of the representable years only. -/
theorem Credential.isFresh_cases (c : Credential) (now : Instant) :
    (now.add? expiryBuffer = none ∧ c.isFresh (.ofInstant now) = .error .overflow) ∨
      ∃ limit fresh, now.add? expiryBuffer = some limit ∧
        c.isFresh (.ofInstant now) = .ok fresh := by
  have moved : (Stamp.ofInstant now).add? expiryBuffer =
      (now.add? expiryBuffer).map Stamp.ofInstant := rfl
  rw [isFresh, moved]
  cases now.add? expiryBuffer with
  | none => exact .inl ⟨rfl, rfl⟩
  | some limit => exact .inr ⟨limit, _, rfl, rfl⟩

/-- Otherwise it can be told. -/
theorem Credential.exists_isFresh (c : Credential) {now : Instant}
    (clock : (now.add? expiryBuffer).isSome) : ∃ fresh, c.isFresh (.ofInstant now) = .ok fresh := by
  obtain ⟨none, -⟩ | ⟨_, fresh, -, hfresh⟩ := c.isFresh_cases now
  · rw [none] at clock
    cases clock
  · exact ⟨fresh, hfresh⟩

namespace Access

variable {a b : Access} {provider : CredentialProvider} {now : Instant} {seen : Option Credential}
  {c : Credential} {fault : Failure}

/-- What the provider hands out for an account, if it can be used. -/
def handed (a : Access) (provider : CredentialProvider) (now : Instant) :
    Except Failure Credential :=
  (provider.credential? now a.account).bind (a.usable now)

/-- What can be used depends on the account and the scope that it needs, not on what it holds. -/
theorem handed_congr (provider : CredentialProvider) (now : Instant)
    (account : b.account = a.account) (scope : b.scope = a.scope) :
    b.handed provider now = a.handed provider now := by
  unfold handed usable
  rw [account, scope]

theorem refresh_eq (a : Access) (provider : CredentialProvider) (now : Instant) :
    a.refresh provider now = match a.handed provider now with
      | .ok c => ({ a with held := some c }, .ok c)
      | .error fault => (a, .error fault) :=
  rfl

/-- The three ways to confirm a credential: the one that was seen is fresh, that cannot be told, or
the provider is asked for another one. -/
theorem confirm_eq (a : Access) (provider : CredentialProvider) (now : Instant)
    (seen : Option Credential) :
    (∃ c, seen = some c ∧ c.isFresh (.ofInstant now) = .ok true ∧
      a.confirm provider now seen = (a, .ok c)) ∨
    (∃ c fault, seen = some c ∧ c.isFresh (.ofInstant now) = .error fault ∧
      a.confirm provider now seen = (a, .error fault)) ∨
    ((∀ c ∈ seen, c.isFresh (.ofInstant now) = .ok false) ∧
      a.confirm provider now seen = a.refresh provider now) := by
  cases seen with
  | none =>
    refine .inr (.inr ⟨?_, rfl⟩)
    rintro _ ⟨⟩
  | some c =>
    simp only [confirm]
    generalize hfresh : c.isFresh (.ofInstant now) = fresh
    match fresh with
    | .ok true => exact .inl ⟨c, rfl, hfresh, rfl⟩
    | .error fault => exact .inr (.inl ⟨c, fault, rfl, hfresh, rfl⟩)
    | .ok false =>
      refine .inr (.inr ⟨?_, rfl⟩)
      rintro _ ⟨⟩
      exact hfresh

/-- All that confirming a credential can do. -/
theorem confirm_cases (a : Access) (provider : CredentialProvider) (now : Instant)
    (seen : Option Credential) :
    (∃ c, seen = some c ∧ c.isFresh (.ofInstant now) = .ok true ∧
      a.confirm provider now seen = (a, .ok c)) ∨
    (∃ c, a.handed provider now = .ok c ∧
      a.confirm provider now seen = ({ a with held := some c }, .ok c)) ∨
    ∃ fault, (a.handed provider now = .error fault ∨
        ∃ c, seen = some c ∧ c.isFresh (.ofInstant now) = .error fault) ∧
      a.confirm provider now seen = (a, .error fault) := by
  obtain fresh | ⟨c, fault, same, unknown, confirmed⟩ | ⟨-, confirmed⟩ :=
    a.confirm_eq provider now seen
  · exact .inl fresh
  · exact .inr (.inr ⟨fault, .inr ⟨c, same, unknown⟩, confirmed⟩)
  · rw [refresh_eq] at confirmed
    cases handed : a.handed provider now with
    | ok c =>
      rw [handed] at confirmed
      exact .inr (.inl ⟨c, rfl, confirmed⟩)
    | error fault =>
      rw [handed] at confirmed
      exact .inr (.inr ⟨fault, .inl rfl, confirmed⟩)

/-- Where a credential can be had, the clock is in range. -/
theorem isSome_add?_of_handed (h : a.handed provider now = .ok c) :
    (now.add? Credential.expiryBuffer).isSome := by
  obtain ⟨given, -, h⟩ := Outcome.bind_eq_ok_iff.1 h
  cases given with
  | none => cases h
  | some c =>
    obtain ⟨-, fresh⟩ | ⟨limit, -, hlimit, -⟩ := c.isFresh_cases now
    · simp only [usable, fresh] at h
      split at h
      · cases h
      · split at h
        · cases h
        · cases h
    · exact Option.isSome_iff_exists.2 ⟨limit, hlimit⟩

end Access

end OrderFlow
