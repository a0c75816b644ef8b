import SecAudit.Enforce.Emit
import SecAudit.Prog.Only
import SecAudit.Rules.Calls

/-!
# The enforcer

* `Enforcer`        what it is configured with;
* `apply`, `enforce`  write the blocks of a match, and the events that tell of them;
* `persist`         the same for what a match alone carries, every failure swallowed;
* `actionKind_*`    which actions block, and for how long.
-/

set_option linter.unusedVariables false

namespace SecAudit
open Py Prog

inductive ActionKind where
  | temp
  | permanent
deriving DecidableEq

/-- the kind as it stands in `enforcement.action` -/
def ActionKind.text : ActionKind → Str
  | .temp => str "temp"
  | .permanent => str "permanent"

structure Enforcer where
  registry : ScopeRegistry
  schemaVersion : Str
  ruleActions : List (Str × ActionSpec) := []
  blockRules : List (Str × BlockRule) := []
  defaultTtl : Option Int := some 300
  defaultAction : Str := str "observe"
  blockSeverity : Option Int := none
  statusCode : Int := 429
  message : Str := defaultBlockMessage
  /-- whether `persist` has an emitter -/
  emitter : Bool := true
  schema_ne : schemaVersion ≠ []

/-- `emitter.emit` -/
def emitBuilt {Response : Type} (built : Built) : Routine Response Unit :=
  perform (.emit built.event built.level)

/-- emit one after the other -/
def emitEach {Response : Type} : List Built → Routine Response Unit
  | [] => pure ()
  | built :: l => do
    emitBuilt built
    emitEach l

namespace Enforcer

section
variable (py : Interp) (e : Enforcer)

/-- `resolve_action` -/
def resolveAction (m : RuleMatch) : Except Exc RuleAction :=
  resolveRuleAction py m e.ruleActions e.blockRules e.defaultTtl e.defaultAction

/-- `_severity_ok` -/
def severityOk (m : RuleMatch) : Bool :=
  match e.blockSeverity with
  | none => false
  | some severity => decide (severity ≤ m.severity)

/-- `_action_kind` -/
def actionKind (action : RuleAction) (m : RuleMatch) : Option ActionKind :=
  if action.action = str "temp_block" then some .temp
  else if action.action = str "persist_block" then some .permanent
  else if action.action = str "block" then
    some (if e.severityOk m then .permanent else .temp)
  else none

/-- `_safe_metadata` -/
def safeMetadata (m : RuleMatch) : Except Exc (List (Str × Json)) := do
  let scrubbed ← scrub .default py.frames (.mapping m.metadata)
  let safe ← jsonSafe py.frames scrubbed
  match safe with
  | .obj l => return l
  | _ => return []

/-- the `ttl` of a block -/
def blockTtl (kind : ActionKind) (action : RuleAction) (m : RuleMatch) : Except Exc (Option Int) :=
  match kind with
  | .permanent => .ok none
  | .temp => do
    let ttl ← effectiveActionTtl py action m e.defaultTtl
    return some ((orInt (orInt ttl e.defaultTtl) none).getD 300)

/-- the keywords `block` is called with -/
def blockArgs (action : RuleAction) (m : RuleMatch) (metadata : List (Str × Json)) : BlockArgs where
  reason := (orNone m.message).getD m.ruleName
  ruleName := m.ruleName
  statusCode := (orInt action.statusCode none).getD e.statusCode
  message := (action.message.bind orNone).getD e.message
  metadata

variable {Response : Type}

/-- one turn of the loop of `apply` -/
def applyScope (m : RuleMatch) (action : RuleAction) (kind : ActionKind)
    (metadata : List (Str × Json)) (scope : BlockScope) : Routine Response Built := do
  let ttl ← ofExcept (e.blockTtl py kind action m)
  let entry ← perform (.block scope (e.blockArgs action m metadata) ttl)
  let now ← perform .timeNs
  ofExcept (buildBlockAppliedEvent py.toBuiltins now e.schemaVersion entry kind.text ttl)

/-- the loop of `apply`, after `results` -/
def applyScopes (m : RuleMatch) (action : RuleAction) (kind : ActionKind)
    (metadata : List (Str × Json)) : List BlockScope → List Built → Routine Response (List Built)
  | [], results => pure results
  | scope :: scopes, results => do
    let built ← e.applyScope py m action kind metadata scope
    applyScopes m action kind metadata scopes (results ++ [built])

def apply (m : RuleMatch) (action : RuleAction) (summary : Summary) : Routine Response (List Built) :=
  match e.actionKind action m with
  | none =>
    if action.action = str "alert" then do
      let now ← perform .timeNs
      let built ← ofExcept (buildAlertEvent py.toBuiltins now e.schemaVersion m)
      return [built]
    else return []
  | some kind => do
    let scopes ← ofExcept (e.registry.blockScopes summary (some action.scopes))
    let metadata ← ofExcept (safeMetadata py m)
    e.applyScopes py m action kind metadata scopes []

/-- `resolve_action`, then `apply` -/
def enforce (m : RuleMatch) (summary : Summary) : Routine Response (List Built) := do
  let action ← ofExcept (e.resolveAction py m)
  e.apply py m action summary

/-- what a match alone tells of the request -/
def matchSummary (m : RuleMatch) : Summary :=
  [(str "srcip", .string (orEmpty m.srcip)), (str "session_id", .string (orEmpty m.sessionId))]

/-- the `try` of `persist` -/
def attemptPersist (m : RuleMatch) : Routine Response Unit := do
  let results ← e.enforce py m (matchSummary m)
  if e.emitter then emitEach results else pure ()

def persist (m : RuleMatch) : Routine Response Unit :=
  (e.attemptPersist py m).catchWith fun _ => pure ()

end

/-! ## which actions block -/

section
variable {e : Enforcer} {action : RuleAction} {m : RuleMatch}

/-- the actions that block for good -/
theorem actionKind_permanent : e.actionKind action m = some .permanent ↔
    action.action = str "persist_block" ∨
      (action.action = str "block" ∧ e.severityOk m = true) := by
  unfold actionKind
  split
  · rename_i h
    rw [h]
    refine iff_of_false (by simp) ?_
    rintro (h' | ⟨h', -⟩)
    · exact absurd h' (by decide)
    · exact absurd h' (by decide)
  · split
    · rename_i h
      exact iff_of_true rfl (.inl h)
    · rename_i h1 h2
      split
      · rename_i h
        cases hs : e.severityOk m
        · exact iff_of_false (by simp) (fun h' => h'.elim h2 (fun h' => by simp at h'))
        · exact iff_of_true (by simp) (.inr ⟨h, rfl⟩)
      · rename_i h3
        exact iff_of_false (by simp) (fun h' => h'.elim h2 fun h' => h3 h'.1)

theorem blockTtl_permanent {py : Interp} : e.blockTtl py .permanent action m = .ok none := rfl

theorem blockTtl_temp {py : Interp} {ttl : Option Int} (h : e.blockTtl py .temp action m = .ok ttl) :
    ttl ≠ none := by
  obtain ⟨t, -, h⟩ := ok_of_bind h
  obtain rfl := Except.ok.inj h
  exact Option.some_ne_none _

end

/-! ## the calls -/

section
variable {Response : Type} {P : (β : Type) → Eff Response β → Prop} {py : Interp} {e : Enforcer}
  {m : RuleMatch}

/-- the calls of `apply` are among `P` -/
structure AllowsApply (P : (β : Type) → Eff Response β → Prop) : Prop where
  block : ∀ scope a ttl, P _ (.block scope a ttl)
  timeNs : P _ .timeNs

theorem only_applyScopes (hP : AllowsApply P) {action : RuleAction} {kind : ActionKind}
    {metadata : List (Str × Json)} : ∀ (scopes : List BlockScope) (results : List Built),
    Only P (e.applyScopes py m action kind metadata scopes results : Routine Response (List Built))
  | [], _ => only_done _
  | scope :: scopes, results => by
    unfold applyScopes applyScope
    refine Only.bind ?_ fun built => only_applyScopes hP scopes _
    exact Only.ofExcept fun ttl _ => Only.bind (only_perform (hP.block _ _ _)) fun entry =>
      Only.bind (only_perform hP.timeNs) fun now => only_done _

theorem only_enforce (hP : AllowsApply P) (summary : Summary) :
    Only P (e.enforce py m summary : Routine Response (List Built)) := by
  unfold enforce apply
  refine Only.ofExcept fun action _ => ?_
  cases e.actionKind action m with
  | none =>
    dsimp only
    split
    · exact Only.bind (only_perform hP.timeNs) fun now => Only.ofExcept fun built _ => only_done _
    · exact only_done _
  | some kind =>
    exact Only.ofExcept fun found _ => Only.ofExcept fun safe _ => only_applyScopes hP found []

end

/-! ## one block -/

section
variable {Response σ : Type} {site : Site Response σ} {py : Interp} {e : Enforcer} {m : RuleMatch}
  {action : RuleAction} {kind : ActionKind} {metadata : List (Str × Json)} {scope : BlockScope}
  {ttl : Option Int} {s s' : σ}

/-- the event of a block that was written -/
theorem applied_ok (e : Enforcer) (entry : BlockEntry) (kind : ActionKind) (ttl : Option Int)
    (now : Nat) : ∃ built,
      buildBlockAppliedEvent py.toBuiltins now e.schemaVersion entry kind.text ttl = .ok built ∧
        built.event.eventType = BLOCK_APPLIED := by
  obtain ⟨built, hb, ht, -⟩ := buildBlockAppliedEvent_ok py.toBuiltins now e.schema_ne entry
    kind.text ttl
  exact ⟨built, hb, ht⟩

/-- a block that is written, and its event -/
theorem runs_applyScope_ok {entry : BlockEntry} (ht : e.blockTtl py kind action m = .ok ttl)
    (hw : site.store.block scope (e.blockArgs action m metadata) ttl s = (.ok entry, s')) :
    ∃ built, buildBlockAppliedEvent py.toBuiltins (site.timeNs s') e.schemaVersion entry kind.text
        ttl = .ok built ∧
      Runs site.handler (e.applyScope py m action kind metadata scope) s
        [⟨.block scope (e.blockArgs action m metadata) ttl, .ok entry⟩,
          ⟨.timeNs, .ok (site.timeNs s')⟩] (.ok built) s' := by
  obtain ⟨built, hb, -⟩ := @applied_ok py e entry kind ttl (site.timeNs s')
  refine ⟨built, hb, ?_⟩
  have hblock := Runs.perform (h := site.handler)
    (Eff.block scope (e.blockArgs action m metadata) ttl : Eff Response BlockEntry) s
  rw [show site.handler _ (Eff.block scope (e.blockArgs action m metadata) ttl) s = (.ok entry, s')
    from hw] at hblock
  have hnow := Runs.perform (h := site.handler) (Eff.timeNs : Eff Response Nat) s'
  have hbuild : Runs site.handler (ofExcept (buildBlockAppliedEvent py.toBuiltins (site.timeNs s')
      e.schemaVersion entry kind.text ttl) : Routine Response Built) s' [] (.ok built) s' := by
    rw [hb]
    exact Runs.done _ _
  exact Runs.ofExcept_ok ht (hblock.bind (hnow.bind hbuild))

/-- a block that fails -/
theorem runs_applyScope_error {x : Exc} (ht : e.blockTtl py kind action m = .ok ttl)
    (hw : site.store.block scope (e.blockArgs action m metadata) ttl s = (.error x, s')) :
    Runs site.handler (e.applyScope py m action kind metadata scope) s
      [⟨.block scope (e.blockArgs action m metadata) ttl, .error x⟩] (.error x) s' := by
  have hblock := Runs.perform (h := site.handler)
    (Eff.block scope (e.blockArgs action m metadata) ttl : Eff Response BlockEntry) s
  rw [show site.handler _ (Eff.block scope (e.blockArgs action m metadata) ttl) s = (.error x, s')
    from hw] at hblock
  exact Runs.ofExcept_ok ht hblock.bind_error

end

end Enforcer

end SecAudit
