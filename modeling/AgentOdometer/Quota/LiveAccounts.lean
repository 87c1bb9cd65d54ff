import AgentOdometer.Quota.Snapshot

/-!
# Live account status

The consents and views which `LiveQuotaService::status` reports (`quota_accounts.rs:18–61`).
-/

namespace AgentOdometer.Quota

/-- The text of a window kind. Follows `quota.rs:104–115`. -/
def QuotaWindowKind.asStr : QuotaWindowKind → String
  | .burst => "burst"
  | .daily => "daily"
  | .weekly => "weekly"
  | .monthly => "monthly"
  | .creditBalance => "credit_balance"
  | .other => "other"

/-- Consent to read one account. Follows `quota_accounts.rs:18–24`. -/
structure QuotaAccountConsent where
  accountId : String
  label : String
  consentedAt : DateTime
  enabled : Bool
deriving Repr, DecidableEq

/-- One limit of an account. Follows `quota_accounts.rs:46–52`. -/
structure LiveQuotaBucketView where
  limitId : String
  limitName : Option String
  spendControlReached : Option Bool
  snapshot : QuotaSnapshot
deriving DecidableEq

/-- One account with what was read of it. Follows `quota_accounts.rs:37–45`. -/
structure LiveQuotaAccountView where
  provider : String
  consent : QuotaAccountConsent
  observedAt : Option DateTime
  ordinaryUsageAllowed : Option Bool
  buckets : List LiveQuotaBucketView
  unavailable : Option String
deriving DecidableEq

/-- What `status` answers. Follows `quota_accounts.rs:53–58`. -/
structure LiveQuotaStatus where
  accounts : List LiveQuotaAccountView
  busy : Bool
  configurationError : Option String
deriving DecidableEq

end AgentOdometer.Quota
