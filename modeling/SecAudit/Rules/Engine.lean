import SecAudit.Rules.Calls
import SecAudit.Rules.Summary

/-!
# The rule engine

* `RuleEngine.evaluate`  the rules that apply, one after the other; then the sinks; then the
                    history of the event, with what the rules contribute to it;
* `runRules`        the loop over the rules: the matches, and the contributions by rule name.
-/

set_option linter.unusedVariables false

namespace SecAudit
open Py Prog

/-- `_INTERNAL_EVENT_PREFIXES` -/
def INTERNAL_EVENT_PREFIXES : List Str :=
  [str "audit.rule.", str "audit.enforcement.", str "audit.context."]

structure RuleEngine (Response : Type) where
  rules : List Rule
  /-- whether there is a history store -/
  history : Bool := true
  /-- `persist` of the result sinks -/
  resultSinks : List (RuleMatch → Routine Response Unit) := []
  historyExtractors : List HistoryScopeExtractor
  sensitiveKeys : List Str := defaultSensitiveKeys
  valuePatterns : List (Str → Bool) := []
  failOpen : Bool := true

/-- what the rules contribute to the history, by rule name -/
abbrev RuleAttrs := List (Str × Except Exc (List (Key × Value)))

structure EvaluationContext where
  ruleEvent : RuleEvent
  now : Int
  summary : Summary
  scopeKeys : List ScopeKey

def EvaluationContext.ruleContext (ctx : EvaluationContext) : RuleContext :=
  ⟨ctx.now, ctx.scopeKeys⟩

namespace RuleEngine

section
variable {Response : Type} (engine : RuleEngine Response)

/-- `_is_internal_event` -/
def isInternalEvent (event : RuleEvent) : Bool :=
  INTERNAL_EVENT_PREFIXES.any fun p => p.isPrefixOf event.eventType

/-- `_build_evaluation_context` -/
def buildEvaluationContext (event : RuleEvent) : Routine Response EvaluationContext := do
  let now ← perform .clock
  let summary ← ofExcept (createHistorySummary engine.sensitiveKeys engine.valuePatterns event)
  let scopeKeys ← ofExcept (extractScopeKeys summary engine.historyExtractors [])
  return ⟨event, now, summary, scopeKeys⟩

/-- `_rule_applies` -/
def ruleApplies (rule : Rule) (event : RuleEvent) (enforcementOnly : Bool) : Bool :=
  (!enforcementOnly || rule.safeForEnforcement) && match rule.eventTypes with
    | some types => types.isEmpty || decide (event.eventType ∈ types)
    | none => true

/-- `_collect_history_attributes`: the contributions after `attrs` -/
def collectHistoryAttributes (rule : Rule) (ctx : EvaluationContext) (enforcementOnly : Bool)
    (attrs : RuleAttrs) : Routine Response RuleAttrs :=
  if rule.name = [] then pure attrs
  else (perform (Eff.ruleAttributes rule ctx.ruleEvent ctx.ruleContext)).attempt fun r => match r with
    | .error e => if enforcementOnly && !engine.failOpen then Prog.throw e else pure attrs
    | .ok (.mapping items) => pure (setItem rule.name items attrs)
    | .ok _ => pure attrs

/-- `_validate_match` -/
def validateMatch : Outcome → Routine Response (Option RuleMatch)
  | .none => pure none
  | .found m => pure (some m)
  | .other => if engine.failOpen then pure none else Prog.throw .typeError

/-- the `try` of `_evaluate_rule` -/
def attemptRule (rule : Rule) (ctx : EvaluationContext) : Routine Response Outcome :=
  if rule.contextValid then perform (.ruleEvaluate rule ctx.ruleEvent ctx.ruleContext)
  else Prog.throw .typeError

/-- `_evaluate_rule` -/
def evaluateRule (rule : Rule) (ctx : EvaluationContext) (enforcementOnly : Bool)
    (attrs : RuleAttrs) : Routine Response (Option RuleMatch × RuleAttrs) :=
  (attemptRule rule ctx).attempt fun r => match r with
    | .error e => if enforcementOnly && !engine.failOpen then Prog.throw e else pure (none, attrs)
    | .ok outcome => do
      let attrs ← engine.collectHistoryAttributes rule ctx enforcementOnly attrs
      let found ← engine.validateMatch outcome
      return (found, attrs)

/-- the loop of `_run_rules`, after `matches` -/
def runRules (ctx : EvaluationContext) (enforcementOnly : Bool) :
    List Rule → List RuleMatch → RuleAttrs → Routine Response (List RuleMatch × RuleAttrs)
  | [], found, attrs => pure (found, attrs)
  | rule :: rules, found, attrs =>
    if ruleApplies rule ctx.ruleEvent enforcementOnly then do
      let r ← engine.evaluateRule rule ctx enforcementOnly attrs
      runRules ctx enforcementOnly rules (found ++ r.1.toList) r.2
    else runRules ctx enforcementOnly rules found attrs

/-- `persist` of one sink over the matches, each failure swallowed -/
def persistEach (sink : RuleMatch → Routine Response Unit) : List RuleMatch → Routine Response Unit
  | [] => pure ()
  | m :: l => do
    (sink m).catchWith fun _ => pure ()
    persistEach sink l

/-- `_persist_matches` -/
def persistMatches (found : List RuleMatch) :
    List (RuleMatch → Routine Response Unit) → Routine Response Unit
  | [] => pure ()
  | sink :: sinks => do
    persistEach sink found
    persistMatches found sinks

/-- `json_safe(dict(attrs))` -/
def safeContribution (frames : Nat) (items : Except Exc (List (Key × Value))) :
    Except Exc (List (Str × Json)) := do
  let items ← items
  let safe ← jsonSafe frames (.mapping items)
  match safe with
  | .obj l => return l
  | _ => return []

/-- the loop of `_merge_history_attributes`, after `safeAttrs` -/
def safeAttributes (frames : Nat) : RuleAttrs → List (Str × Json) →
    Except Exc (List (Str × Json))
  | [], safeAttrs => .ok safeAttrs
  | (name, items) :: l, safeAttrs => do
    let safe ← safeContribution frames items
    safeAttributes frames l (if safe = [] then safeAttrs else setItem name (.obj safe) safeAttrs)

/-- `_merge_history_attributes` -/
def mergeHistoryAttributes (frames : Nat) (attrs : RuleAttrs) (summary : Summary) :
    Except Exc Summary := do
  let safeAttrs ← safeAttributes frames attrs []
  return if safeAttrs = [] then summary else setItem (str "rule_attrs") (.obj safeAttrs) summary

/-- `_append_history` -/
def appendHistory (summary : Summary) (scopeKeys : List ScopeKey) (recordedAt : Int) :
    Routine Response Unit :=
  if !engine.history || scopeKeys.isEmpty then pure ()
  else (perform (Eff.append summary scopeKeys recordedAt)).catchWith fun _ => pure ()

/-- `evaluate`, once the context is there -/
def evaluateIn (frames : Nat) (ctx : EvaluationContext) (enforcementOnly : Bool) :
    Routine Response (List RuleMatch) := do
  let r ← engine.runRules ctx enforcementOnly engine.rules [] []
  persistMatches r.1 engine.resultSinks
  if enforcementOnly then return r.1
  else do
    let summary ← ofExcept (mergeHistoryAttributes frames r.2 ctx.summary)
    engine.appendHistory summary ctx.scopeKeys ctx.now
    return r.1

def evaluate (frames : Nat) (event : RuleEvent) (enforcementOnly : Bool) :
    Routine Response (List RuleMatch) :=
  if isInternalEvent event then pure []
  else (engine.buildEvaluationContext event).attempt fun r => match r with
    | .error e => if engine.failOpen then pure [] else Prog.throw e
    | .ok ctx => engine.evaluateIn frames ctx enforcementOnly

end

end RuleEngine

end SecAudit
