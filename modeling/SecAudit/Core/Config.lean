import SecAudit.Core.Scrub

/-!
# The part of `CoreAuditConfig` that the modelled functions read
-/

namespace SecAudit
open Py

def MAX_SOURCE_LENGTH : Nat := 256

/-- `redaction` holds `sensitive_keys`, `sensitive_value_patterns` and `sensitive_key_allowlist` -/
structure CoreAuditConfig where
  redaction : Redaction := .default
  source : Str := str "sec-audit"
  source_ne : source ≠ [] := by decide
  source_length : source.length ≤ MAX_SOURCE_LENGTH := by decide

def CoreAuditConfig.default : CoreAuditConfig := {}

end SecAudit
