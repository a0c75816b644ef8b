import SecAudit.Rules.Engine
import SecAudit.Prog.Only

/-!
# The calls of an evaluation

* `AllowsRules`     the clock, the rules and the history are among the calls `P`;
* `only_evaluate`   an evaluation makes no other calls than these and those of its sinks.
-/

set_option linter.unusedVariables false

namespace SecAudit
open Py Prog

section
variable {Response : Type} {P : (β : Type) → Eff Response β → Prop}

/-- the calls of an evaluation, its sinks apart, are among `P` -/
structure AllowsRules (P : (β : Type) → Eff Response β → Prop) : Prop where
  clock : P _ .clock
  evaluate : ∀ rule event ctx, P _ (.ruleEvaluate rule event ctx)
  attributes : ∀ rule event ctx, P _ (.ruleAttributes rule event ctx)
  append : ∀ summary scopeKeys recordedAt, P _ (.append summary scopeKeys recordedAt)

variable {engine : RuleEngine Response} {ctx : EvaluationContext} {eo : Bool}

section
variable (hP : AllowsRules P)
include hP

theorem only_buildEvaluationContext (event : RuleEvent) :
    Only P (engine.buildEvaluationContext event) := by
  unfold RuleEngine.buildEvaluationContext
  exact Only.bind (only_perform hP.clock) fun now => Only.ofExcept fun summary _ =>
    Only.ofExcept fun keys _ => only_done _

theorem only_appendHistory (summary : Summary) (scopeKeys : List ScopeKey) (recordedAt : Int) :
    Only P (engine.appendHistory summary scopeKeys recordedAt) := by
  unfold RuleEngine.appendHistory
  split
  · exact only_done _
  · exact Only.catchWith (only_perform (hP.append _ _ _)) fun _ => only_done _

theorem only_collect (rule : Rule) (attrs : RuleAttrs) :
    Only P (engine.collectHistoryAttributes rule ctx eo attrs) := by
  unfold RuleEngine.collectHistoryAttributes
  split
  · exact only_done _
  · refine Only.attempt (only_perform (hP.attributes _ _ _)) fun r => ?_
    split
    · split
      · exact only_done _
      · exact only_done _
    · exact only_done _
    · exact only_done _

theorem only_evaluateRule (rule : Rule) (attrs : RuleAttrs) :
    Only P (engine.evaluateRule rule ctx eo attrs) := by
  unfold RuleEngine.evaluateRule RuleEngine.attemptRule
  refine Only.attempt ?_ fun r => ?_
  · split
    · exact only_perform (hP.evaluate _ _ _)
    · exact only_done _
  · split
    · split
      · exact only_done _
      · exact only_done _
    · refine Only.bind (only_collect hP rule attrs) fun attrs' => Only.bind ?_ fun found => only_done _
      unfold RuleEngine.validateMatch
      split
      · exact only_done _
      · exact only_done _
      · split
        · exact only_done _
        · exact only_done _

theorem only_runRules : ∀ (rules : List Rule) (found : List RuleMatch) (attrs : RuleAttrs),
    Only P (engine.runRules ctx eo rules found attrs)
  | [], _, _ => only_done _
  | rule :: rules, found, attrs => by
    unfold RuleEngine.runRules
    split
    · exact Only.bind (only_evaluateRule hP rule attrs) fun r => only_runRules rules _ _
    · exact only_runRules rules found attrs

end

theorem only_persistEach {sink : RuleMatch → Routine Response Unit}
    (hs : ∀ m, Only P (sink m)) :
    ∀ found : List RuleMatch, Only P (RuleEngine.persistEach sink found)
  | [] => only_done _
  | m :: l => Only.bind ((hs m).catchWith fun _ => only_done _) fun _ => only_persistEach hs l

theorem only_persistMatches (found : List RuleMatch) :
    ∀ {sinks : List (RuleMatch → Routine Response Unit)}, (∀ sink ∈ sinks, ∀ m, Only P (sink m)) →
    Only P (RuleEngine.persistMatches found sinks)
  | [], _ => only_done _
  | sink :: sinks, hs =>
    Only.bind (only_persistEach (hs sink List.mem_cons_self) found) fun _ =>
      only_persistMatches found fun x hx => hs x (List.mem_cons_of_mem sink hx)

/-- **an evaluation** makes these calls and those of its sinks -/
theorem only_evaluate (hP : AllowsRules P) {frames : Nat} {event : RuleEvent}
    (hs : ∀ sink ∈ engine.resultSinks, ∀ m, Only P (sink m)) :
    Only P (engine.evaluate frames event eo) := by
  unfold RuleEngine.evaluate
  split
  · exact only_done _
  · refine Only.attempt (only_buildEvaluationContext hP event) fun r => ?_
    split
    · split
      · exact only_done _
      · exact only_done _
    · unfold RuleEngine.evaluateIn
      refine Only.bind (only_runRules hP _ _ _) fun r => Only.bind
        (only_persistMatches _ hs) fun _ => ?_
      split
      · exact only_done _
      · exact Only.ofExcept fun summary _ => Only.bind (only_appendHistory hP _ _ _) fun _ =>
          only_done _

end

end SecAudit
