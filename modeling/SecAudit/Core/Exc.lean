import SecAudit.Py.Text

/-!
# Exceptions

* `Exc`             the exceptions of the repository and of the libraries under it.
-/

namespace SecAudit
open Py

inductive Exc where
  /-- a `ValueError` of the repository, with its text -/
  | valueError (text : Str)
  /-- a `ValueError` of the JSON library -/
  | jsonError
  /-- `UnicodeEncodeError`, also a `ValueError` -/
  | unicodeError
  /-- `int()` of something that is no number, also a `ValueError` -/
  | conversionError
  /-- `AuditConfigurationError`, also a `ValueError` -/
  | auditConfigurationError (text : Str)
  /-- `ProjectionError`, also a `ValueError` -/
  | projectionError (text : Str)
  | keyError (key : Str)
  | typeError
  | overflowError
  | recursionError
  | redisError
  | databaseError
  | integrityError
  | blockStoreError (text : Str)
  | other (n : Nat)
deriving DecidableEq

namespace Exc

/-- `isinstance(e, DatabaseError)` -/
def isDatabaseError : Exc → Bool
  | .databaseError => true
  | .integrityError => true
  | _ => false

def isBlockStoreError : Exc → Bool
  | .blockStoreError _ => true
  | _ => false

/-- `isinstance(e, (ValueError, KeyError, TypeError))` -/
def isMalformed : Exc → Bool
  | .valueError _ => true
  | .jsonError => true
  | .unicodeError => true
  | .conversionError => true
  | .auditConfigurationError _ => true
  | .projectionError _ => true
  | .keyError _ => true
  | .typeError => true
  | _ => false

end Exc

/-- what goes through went through its first part -/
theorem ok_of_bind {ε α β : Type} {x : Except ε α} {f : α → Except ε β} {y : β}
    (h : x >>= f = .ok y) : ∃ a, x = .ok a ∧ f a = .ok y := by
  cases x with
  | error e => cases h
  | ok a => exact ⟨a, rfl, h⟩

theorem ok_of_map {ε α β : Type} {x : Except ε α} {f : α → β} {y : β}
    (h : x.map f = .ok y) : ∃ a, x = .ok a ∧ f a = y := by
  cases x with
  | error e => cases h
  | ok a => exact ⟨a, rfl, Except.ok.inj h⟩

/-- no exception -/
def isOk {α : Type} : Except Exc α → Bool
  | .ok _ => true
  | .error _ => false

theorem isOk_iff {α : Type} {x : Except Exc α} : isOk x = true ↔ ∃ a, x = .ok a := by
  cases x with
  | error e => exact iff_of_false Bool.false_ne_true (by simp)
  | ok a => exact iff_of_true rfl ⟨a, rfl⟩

end SecAudit
