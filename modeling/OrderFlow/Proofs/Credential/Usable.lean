import OrderFlow.Proofs.Check.Ends
import OrderFlow.Proofs.Credential.Access
import OrderFlow.Proofs.Time.Stamp

/-!
# When a credential can be used

A credential is handed out just if the provider has it for the account and it is `Usable`
(`Access.handed_eq_ok_iff`). Where none is handed out the configuration is at fault
(`Access.configuration_of_handed`), unless the clock is so close to the end of the representable
years that the times to compare with lie behind it.
-/

namespace OrderFlow

namespace Credential

/-- A credential that can be used where a scope is needed: it has the scope and a refresh token, and
does not expire within the buffer from now. -/
structure Usable (c : Credential) (needed : String) (now : Instant) : Prop where
  scope : needed ∈ c.scopes
  refreshable : ∃ token, c.refreshToken = some token ∧ token ≠ ""
  lasting : now.micros + expiryBuffer < c.expiresAt.point

/-- Whether a credential is fresh can be told up to a minute before the end of the representable
years. -/
theorem isFresh_eq_ok_iff {c : Credential} {now : Instant} {fresh : Bool} :
    c.isFresh (.ofInstant now) = .ok fresh ↔ (now.add? expiryBuffer).isSome ∧
      fresh = decide (now.micros + expiryBuffer < c.expiresAt.point) := by
  have moved : (Stamp.ofInstant now).add? expiryBuffer =
      (now.add? expiryBuffer).map Stamp.ofInstant := rfl
  rw [isFresh, moved]
  cases hlimit : now.add? expiryBuffer with
  | none => simp
  | some limit =>
    have point : (Stamp.ofInstant limit).point = now.micros + expiryBuffer := by
      rw [← Instant.micros_of_add? hlimit]
      exact Int.sub_zero _
    have known : (Stamp.ofInstant limit).offset.isNone = false := rfl
    simp [point, known, pure, Except.pure, eq_comm]

end Credential

namespace Access

variable {a : Access} {provider : CredentialProvider} {now : Instant} {c : Credential}

theorem usable_eq_ok_iff {given : Option Credential} : a.usable now given = .ok c ↔
    given = some c ∧ c.Usable a.scope now ∧ (now.add? Credential.expiryBuffer).isSome := by
  cases given with
  | none => simp [usable]
  | some d =>
    have refreshable : (d.refreshToken.getD "").isEmpty = false ↔
        ∃ token, d.refreshToken = some token ∧ token ≠ "" := by
      cases d.refreshToken with
      | none => simp
      | some token => simp
    have judged : a.usable now (some d) = .ok c ↔
        a.scope ∈ d.scopes ∧ (d.refreshToken.getD "").isEmpty = false ∧
          d.isFresh (.ofInstant now) = .ok true ∧ d = c := by
      unfold usable
      by_cases scope : a.scope ∈ d.scopes
      · cases refresh : (d.refreshToken.getD "").isEmpty with
        | true => simp [scope, refresh, bind, Except.bind]
        | false =>
          rcases hfresh : d.isFresh (.ofInstant now) with fault | _ | _ <;>
            simp [scope, refresh, hfresh, bind, Except.bind, pure, Except.pure]
      · simp [scope, bind, Except.bind]
    rw [judged, refreshable, Credential.isFresh_eq_ok_iff]
    constructor
    · rintro ⟨scope, refresh, ⟨clock, lasting⟩, rfl⟩
      exact ⟨rfl, ⟨scope, refresh, of_decide_eq_true lasting.symm⟩, clock⟩
    · rintro ⟨same, ⟨scope, refresh, lasting⟩, clock⟩
      obtain rfl := Option.some.inj same
      exact ⟨scope, refresh, ⟨clock, (decide_eq_true lasting).symm⟩, rfl⟩

theorem handed_eq_ok_iff : a.handed provider now = .ok c ↔
    provider.credential? now a.account = .ok (some c) ∧ c.Usable a.scope now ∧
      (now.add? Credential.expiryBuffer).isSome := by
  rw [handed]
  cases hgiven : provider.credential? now a.account with
  | error fault => simp [Except.bind]
  | ok given => simp [Except.bind, usable_eq_ok_iff]

end Access

/-! ## Why none is handed out -/

section Clock

variable {now : Instant}

/-- An instant that can be moved on can be moved less far. -/
theorem Instant.isSome_add?_of_le {d e : Duration} (positive : 0 ≤ d) (le : d ≤ e)
    (clock : (now.add? e).isSome) : (now.add? d).isSome := by
  unfold Duration at *
  unfold add? ofMicros? at *
  split at clock
  · rename_i late
    rw [dif_pos (by omega)]
    rfl
  · cases clock

/-- How far the clock has to be from the end of the representable years for a provider: the life of
a credential whose expiry is not given lies behind now, as does the buffer of every credential. -/
def CredentialProvider.margin : CredentialProvider → Duration
  | held _ => Credential.expiryBuffer
  | environment _ => defaultLife

theorem CredentialProvider.isSome_add?_margin (provider : CredentialProvider)
    (clock : (now.add? defaultLife).isSome) : (now.add? provider.margin).isSome := by
  cases provider with
  | held _ =>
    exact Instant.isSome_add?_of_le (d := Credential.expiryBuffer) (by decide) (by decide) clock
  | environment _ => exact clock

theorem CredentialProvider.isSome_add?_expiryBuffer {provider : CredentialProvider}
    (clock : (now.add? provider.margin).isSome) : (now.add? Credential.expiryBuffer).isSome := by
  cases provider with
  | held _ => exact clock
  | environment _ =>
    exact Instant.isSome_add?_of_le (e := defaultLife) (by decide) (by decide) clock

end Clock

section Faults

variable {provider : CredentialProvider} {now : Instant} {account : AccountId} {a : Access}
  {fault : Failure}

/-- A provider that cannot tell whether it has a credential is configured badly. -/
theorem CredentialProvider.configuration_of_credential?
    (clock : (now.add? provider.margin).isSome)
    (fails : provider.credential? now account = .error fault) : ∃ c, fault = .configuration c := by
  cases provider with
  | held credentials => cases fails
  | environment env =>
    obtain ⟨expiry, hexpiry⟩ := Option.isSome_iff_exists.1 clock
    rw [margin] at hexpiry
    simp only [credential?, fromEnvironment, hexpiry] at fails
    split at fails
    · split at fails
      · cases fails
      · have ends (v : Value) (step : PathStep) : ((Credential.checkExpiry v).under step).Ends :=
          Checked.ends_under_iff.2 (Checked.ends_map_iff.2 (Check.ends_time v))
        rcases Outcome.bind_eq_error_iff.1 fails with fails | ⟨_, -, fails⟩
        · obtain ⟨issues, rfl⟩ := (ends _ _).toExcept fails
          exact ⟨_, rfl⟩
        · cases fails
    · cases fails

/-- A credential that cannot be used is a fault of the configuration. -/
theorem Access.configuration_of_usable {given : Option Credential}
    (clock : (now.add? Credential.expiryBuffer).isSome)
    (fails : a.usable now given = .error fault) : ∃ c, fault = .configuration c := by
  cases given with
  | none =>
    cases fails
    exact ⟨_, rfl⟩
  | some c =>
    obtain ⟨fresh, hfresh⟩ := c.exists_isFresh clock
    simp only [usable, hfresh] at fails
    split at fails
    · cases fails
      exact ⟨_, rfl⟩
    split at fails
    · cases fails
      exact ⟨_, rfl⟩
    cases fresh
    · cases fails
      exact ⟨_, rfl⟩
    · cases fails

/-- If no credential can be had that can be used, the configuration is at fault. -/
theorem Access.configuration_of_handed (clock : (now.add? provider.margin).isSome)
    (fails : a.handed provider now = .error fault) : ∃ c, fault = .configuration c := by
  rcases Outcome.bind_eq_error_iff.1 fails with fails | ⟨given, -, fails⟩
  · exact CredentialProvider.configuration_of_credential? clock fails
  · exact configuration_of_usable (CredentialProvider.isSome_add?_expiryBuffer clock) fails

/-- A provider that has no credential for an account that can be used where a scope is needed. -/
def CredentialProvider.Lacks (provider : CredentialProvider) (now : Instant) (account : AccountId)
    (needed : String) : Prop :=
  ∀ c, provider.credential? now account = .ok (some c) → ¬ c.Usable needed now

/-- Where none can be had it fails, by a fault of the configuration while the clock is in range. -/
theorem CredentialProvider.Lacks.exists_handed_error
    (lacks : provider.Lacks now a.account a.scope) :
    ∃ fault, a.handed provider now = .error fault ∧
      ((now.add? provider.margin).isSome → ∃ c, fault = .configuration c) := by
  cases handed : a.handed provider now with
  | ok c =>
    obtain ⟨given, usable, -⟩ := Access.handed_eq_ok_iff.1 handed
    exact absurd usable (lacks c given)
  | error fault => exact ⟨fault, rfl, fun clock => Access.configuration_of_handed clock handed⟩

/-- Where none can be had, none is confirmed in place of one that is not fresh. -/
theorem Access.exists_confirm_error (lacks : provider.Lacks now a.account a.scope)
    {seen : Option Credential} (stale : ∀ c ∈ seen, c.isFresh (.ofInstant now) ≠ .ok true) :
    ∃ fault, a.confirm provider now seen = (a, .error fault) ∧
      ((now.add? provider.margin).isSome → ∃ c, fault = .configuration c) := by
  obtain ⟨c, rfl, fresh, -⟩ | ⟨c, fault, rfl, unknown, confirmed⟩ | ⟨-, confirmed⟩ :=
    a.confirm_eq provider now seen
  · exact absurd fresh (stale c rfl)
  · refine ⟨fault, confirmed, fun clock => ?_⟩
    obtain ⟨_, known⟩ := c.exists_isFresh (CredentialProvider.isSome_add?_expiryBuffer clock)
    rw [unknown] at known
    cases known
  · obtain ⟨fault, handed, configuration⟩ := lacks.exists_handed_error
    rw [refresh_eq, handed] at confirmed
    exact ⟨fault, confirmed, configuration⟩

end Faults

end OrderFlow
