import AgentOdometer.Lib.Keys

/-!
# Providers

Provider identifiers and the built-in registry of `provider.rs`.
-/

namespace AgentOdometer

/-- Characters after the first of a provider id. Follows `provider.rs:25–26`. -/
def isProviderIdChar (c : Char) : Bool :=
  c.isLower || c.isDigit || c == '_' || c == '-'

/-- The validation of `ProviderId::new`, `provider.rs:23–27`. -/
def isProviderId (value : String) : Bool :=
  match value.toList with
  | [] => false
  | first :: rest => first.isLower && rest.all isProviderIdChar

/-- A validated provider identifier. Follows `provider.rs:17`. -/
structure ProviderId where
  value : String
  valid : isProviderId value = true
deriving DecidableEq

namespace ProviderId

instance : Repr ProviderId :=
  ⟨fun id prec ↦ reprPrec id.value prec⟩

/-- `ProviderId::new`, `provider.rs:20–33`. -/
def new (value : String) : Except String ProviderId :=
  if h : isProviderId value = true then
    .ok ⟨value, h⟩
  else
    .error ("provider id must start with a lowercase ASCII letter and contain only " ++
      "lowercase letters, digits, '_' or '-'")

theorem value_injective : Function.Injective value := by
  intro a b h
  cases a
  cases b
  simpa using h

/-- Identifiers are ordered as their strings. -/
instance : Ord ProviderId :=
  ⟨compareOn value⟩

instance : Std.TransOrd ProviderId :=
  inferInstanceAs (Std.TransCmp (compareOn value))

instance : Std.LawfulEqOrd ProviderId :=
  lawfulEqCmp_compareOn value_injective

/-- `codex_provider_id`, `provider.rs:84–86`. -/
def codex : ProviderId :=
  ⟨"codex", by decide⟩

/-- `claude_code_provider_id`, `provider.rs:88–90`. -/
def claudeCode : ProviderId :=
  ⟨"claude_code", by decide⟩

/-- `gemini_cli_provider_id`, `provider.rs:92–94`. -/
def geminiCli : ProviderId :=
  ⟨"gemini_cli", by decide⟩

instance : Inhabited ProviderId :=
  ⟨codex⟩

end ProviderId

/-- The capability flags which the modelled functions read. Follows `provider.rs:102–148`. -/
structure ProviderCapabilities where
  archivedSources : Bool
  quotaSource : Bool
deriving Repr, DecidableEq

/-- A registered provider. Follows `provider.rs:150–155`. -/
structure ProviderDescriptor where
  id : ProviderId
  displayName : String
  capabilities : ProviderCapabilities
deriving Repr, DecidableEq

/-- The descriptors of `ProviderRegistry::builtin`, in registration order.
Follows `provider.rs:362–432,541–563`. -/
def ProviderRegistry.descriptors : List ProviderDescriptor :=
  [⟨.codex, "Codex", ⟨true, true⟩⟩, ⟨.claudeCode, "Claude Code", ⟨false, false⟩⟩,
    ⟨.geminiCli, "Gemini CLI", ⟨false, false⟩⟩]

end AgentOdometer
