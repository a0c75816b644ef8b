import SecAudit.Enforce.Enforcer
import SecAudit.Rules.Engine

/-!
# The enforcement runtime

* `DjangoEnforcementConfig`, `DjangoEnforcementRuntime`  the configuration, and what is built of it:
                    the enforcer and the engine;
* `handleEvent`, `consume`  detection and application for an event that was recorded;
* `blockSubject`, `unblockSubject`  the same by hand.
-/

set_option linter.unusedVariables false

namespace SecAudit
open Py Prog

theorem defaultTempTtl_pos : (0 : Int) < 300 := by decide

/-- the part of the configuration that the modelled functions read; `failClosedPaths` are the
searches of the compiled patterns -/
structure DjangoEnforcementConfig where
  enabled : Bool := false
  failOpen : Bool := true
  failClosedPaths : List (Str → Bool) := []
  defaultTempTtl : Int := 300
  evalSafeOnIngress : Bool := true
  applyViaSink : Bool := false
  statusCode : Int := 429
  message : Str := defaultBlockMessage
  blockSeverity : Option Int := none
  ruleActions : List (Str × ActionSpec) := []
  blockRules : List (Str × BlockRule) := []
  tempTtl_pos : 0 < defaultTempTtl := by exact defaultTempTtl_pos

structure DjangoEnforcementRuntime where
  config : DjangoEnforcementConfig
  scopeRegistry : ScopeRegistry
  rules : List Rule
  schemaVersion : Str
  schema_ne : schemaVersion ≠ []

namespace DjangoEnforcementRuntime

section
variable (py : Interp) (rt : DjangoEnforcementRuntime)

/-- the enforcer of `_build_runtime` -/
def enforcer : Enforcer where
  registry := rt.scopeRegistry
  schemaVersion := rt.schemaVersion
  ruleActions := rt.config.ruleActions
  blockRules := rt.config.blockRules
  defaultTtl := some rt.config.defaultTempTtl
  defaultAction := str "observe"
  blockSeverity := rt.config.blockSeverity
  statusCode := rt.config.statusCode
  message := rt.config.message
  emitter := true
  schema_ne := rt.schema_ne

variable {Response : Type}

/-- the engine of `_build_runtime`; without extractors it takes the default ones -/
def engine : RuleEngine Response where
  rules := rt.rules
  history := true
  resultSinks := if rt.config.applyViaSink then [fun m => rt.enforcer.persist py m] else []
  historyExtractors :=
    if rt.scopeRegistry.definitions.isEmpty then (ScopeRegistry.default py.toBuiltins).extractors
    else rt.scopeRegistry.extractors
  failOpen := rt.config.failOpen

/-- the loop of `handle_event` over the matches -/
def applyEach (summary : Summary) : List RuleMatch → Routine Response Unit
  | [] => pure ()
  | m :: l => do
    let results ← rt.enforcer.enforce py m summary
    emitEach results
    applyEach summary l

/-- `handle_event`, of an `AuditEvent` -/
def handleEvent (event : AuditEvent) : Routine Response Unit :=
  let ruleEvent := RuleEvent.fromEvent py.toBuiltins event
  do
    let found ← rt.engine py |>.evaluate py.frames ruleEvent false
    if rt.config.applyViaSink then pure ()
    else rt.applyEach py ruleEvent.toDict found

end

end DjangoEnforcementRuntime

section
variable (py : Interp) {Response : Type}

/-- `consume`; `runtime` is what `get_enforcement_runtime` returned or raised -/
def consume (runtime : Except Exc DjangoEnforcementRuntime) (event : AuditEvent) :
    Routine Response Unit :=
  match runtime with
  | .error _ => pure ()
  | .ok rt =>
    if rt.config.enabled then (rt.handleEvent py event).catchWith fun _ => pure () else pure ()

variable (rt : DjangoEnforcementRuntime)

/-- the keywords of `block_subject`, the scope and `ttl` apart -/
structure SubjectArgs where
  reason : Str := []
  ruleName : Str := str "manual"
  statusCode : Option Int := none
  message : Option Str := none
  metadata : List (Str × Json) := []
  actor : Str := []

/-- what the store is called with -/
def SubjectArgs.blockArgs (a : SubjectArgs) : BlockArgs where
  reason := a.reason
  ruleName := a.ruleName
  statusCode := a.statusCode.getD rt.config.statusCode
  message := a.message.getD rt.config.message
  metadata := if a.actor = [] ∨ hasItem (str "actor") a.metadata = true then a.metadata
    else a.metadata ++ [(str "actor", .string a.actor)]

/-- the kind of a manual block -/
def subjectKind (ttl : Option Int) : ActionKind := if ttl.isSome then .temp else .permanent

/-- `block_subject`; `scopeValue` is `_subject_id` of the subject -/
def blockSubject (scopeType scopeValue : Str) (a : SubjectArgs) (ttl : Option Int) :
    Routine Response BlockEntry := do
  let scope ← ofExcept (BlockScope.make scopeType scopeValue)
  let entry ← perform (.block scope (a.blockArgs rt) ttl)
  let now ← perform .timeNs
  let built ← ofExcept (buildBlockAppliedEvent py.toBuiltins now rt.schemaVersion entry
    (subjectKind ttl).text ttl)
  emitBuilt built
  return entry

/-- `unblock_subject` -/
def unblockSubject (scopeType scopeValue reason revokedBy : Str) : Routine Response Int := do
  let scope ← ofExcept (BlockScope.make scopeType scopeValue)
  let count ← perform (.unblock scope reason revokedBy)
  if count = 0 then return count
  else do
    let now ← perform .timeNs
    let built ← ofExcept (buildBlockRevokedEvent py.toBuiltins now rt.schemaVersion scope revokedBy
      reason)
    emitBuilt built
    return count

end

end SecAudit
