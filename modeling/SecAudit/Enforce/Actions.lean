import SecAudit.Core.Projection
import SecAudit.Rules.Base

/-!
# What to do about a match

* `ActionSpec`      an entry of `rule_actions` that the configuration accepted;
* `RuleAction`, `resolveRuleAction`  the action for a match: the entry of its rule, the entry of
                    `block_rules`, its own decision, or the default;
* `effectiveActionTtl`  how long a temporary block lasts.
-/

set_option linter.unusedVariables false

namespace SecAudit
open Py

/-- the builtins, what `int` makes of any object, and the nested calls the stack has room for -/
structure Interp extends Builtins where
  intValue : Value → Except Exc Int
  frames : Nat

def Interp.sample : Interp where
  toBuiltins := .sample
  intValue
    | .int i => .ok i
    | _ => .error .typeError
  frames := 100

/-! ## actions -/

/-- `BLOCKING_ACTIONS` -/
def BLOCKING_ACTIONS : List Str := [str "block", str "temp_block", str "persist_block"]

/-- the actions `rule_actions` may name -/
def RULE_ACTIONS : List Str := [str "observe", str "alert"] ++ BLOCKING_ACTIONS

def DEFAULT_BLOCK_SCOPES : List Str := [str "ip"]

def PERSIST_DEFAULT_SCOPES : List Str := [str "user", str "session"]

structure RuleAction where
  action : Str
  ttl : Option Int := none
  scopes : List Str := DEFAULT_BLOCK_SCOPES
  statusCode : Option Int := none
  message : Option Str := none

theorem tempBlock_known : str "temp_block" ∈ RULE_ACTIONS := by decide

theorem noTtl_pos : ∀ n ∈ (none : Option Int), 0 < n := by simp

theorem noStatus_range : ∀ n ∈ (none : Option Int), 100 ≤ n ∧ n ≤ 599 := by simp

/-- an entry of `rule_actions`, as `EnforcementAuditConfig` accepts it -/
structure ActionSpec where
  action : Str
  ttl : Option Int := none
  /-- what `tuple(str(scope) for scope in scopes)` does, when `scopes` is true -/
  scopes : Option (Except Exc (List Str)) := none
  statusCode : Option Int := none
  message : Option Str := none
  action_known : action ∈ RULE_ACTIONS
  ttl_pos : ∀ n ∈ ttl, 0 < n := by exact noTtl_pos
  status_valid : ∀ n ∈ statusCode, 100 ≤ n ∧ n ≤ 599 := by exact noStatus_range

/-- an entry of `block_rules` -/
structure BlockRule where
  ttl : Int
  ttl_pos : 0 < ttl

/-! ## the action for a match -/

/-- `n or m` -/
def orInt (n m : Option Int) : Option Int :=
  match n with
  | some n => if n = 0 then m else some n
  | none => m

/-- `metadata.get(k)`, when the key is there -/
def metadataItem (k : Str) (metadata : List (Key × Value)) : Option Value :=
  metadata.findSome? fun p => match p.1 with
    | .str s => if s = k then some p.2 else none
    | .other _ => none

/-- `metadata.get('block_ttl', metadata.get('ttl'))`, unless it is `None` -/
def metadataTtl (metadata : List (Key × Value)) : Option Value :=
  ((metadataItem (str "block_ttl") metadata).or (metadataItem (str "ttl") metadata)).filter
    fun v => match v with
      | .none => false
      | _ => true

section
variable (py : Interp)

/-- `_match_block_ttl` -/
def matchBlockTtl (m : RuleMatch) (defaultTtl : Option Int) : Except Exc (Option Int) :=
  match metadataTtl m.metadata with
  | some ttl => (py.intValue ttl).map some
  | none => .ok (if m.decision = some (str "temp_block") then some ((orInt defaultTtl none).getD 300)
      else none)

/-- `effective_action_ttl` -/
def effectiveActionTtl (action : RuleAction) (m : RuleMatch) (defaultTtl : Option Int) :
    Except Exc (Option Int) :=
  match orInt action.ttl none with
  | some ttl => .ok (some ttl)
  | none => do
    let ttl ← matchBlockTtl py m defaultTtl
    return orInt ttl defaultTtl

/-- `_configured_rule_action` -/
def configuredRuleAction (spec : ActionSpec) : Except Exc RuleAction := do
  let scopes ← spec.scopes.getD (.ok DEFAULT_BLOCK_SCOPES)
  return ⟨spec.action, spec.ttl, scopes, spec.statusCode, spec.message⟩

/-- an action named by its decision, with the ttl of the match -/
def matchAction (action : Str) (m : RuleMatch) (defaultTtl : Option Int) (scopes : List Str) :
    Except Exc RuleAction := do
  let ttl ← matchBlockTtl py m defaultTtl
  return { action, ttl, scopes }

/-- the decisions that name an action -/
def decided (m : RuleMatch) : Option Str :=
  m.decision.filter fun d => decide (d ∈ RULE_ACTIONS)

def resolveRuleAction (m : RuleMatch) (configuredActions : List (Str × ActionSpec))
    (blockRules : List (Str × BlockRule)) (defaultTtl : Option Int) (defaultAction : Str) :
    Except Exc RuleAction :=
  match getItem m.ruleName configuredActions with
  | some spec => configuredRuleAction spec
  | none =>
    match getItem m.ruleName blockRules with
    | some rule => .ok { action := str "temp_block", ttl := some rule.ttl }
    | none =>
      match decided m with
      | some decision =>
        -- a permanent block that names no scopes is never on an address
        matchAction py decision m defaultTtl
          (if decision = str "persist_block" then PERSIST_DEFAULT_SCOPES else DEFAULT_BLOCK_SCOPES)
      | none =>
        if defaultAction = str "alert" then .ok { action := str "alert" }
        else if defaultAction ∈ BLOCKING_ACTIONS then
          matchAction py defaultAction m defaultTtl DEFAULT_BLOCK_SCOPES
        else .ok { action := str "observe" }

end

end SecAudit
