import SecAudit.Prog.Trace
import SecAudit.Rules.Base
import SecAudit.Rules.Scopes

/-!
# The calls on what is around the rules and the enforcement

* `Eff`             the calls: rules, history, block store, emission, clock, the view;
* `BlockStore`      a block store, by what its calls do to its state;
* `Site`            all that is around, and `Site.handler`, how it answers the calls.
-/

set_option linter.unusedVariables false

namespace SecAudit
open Py Prog

/-- what the engine reads off a rule -/
structure Rule where
  name : Str
  safeForEnforcement : Bool := false
  /-- `event_types`, when it is true -/
  eventTypes : Option (List Str) := none
  /-- `context` is `None` or a `ContextRequirements` -/
  contextValid : Bool := true
deriving DecidableEq

/-- what a rule is given besides the event; times are in milliseconds -/
structure RuleContext where
  now : Int
  scopeKeys : List ScopeKey

/-- what `evaluate` of a rule returned -/
inductive Outcome where
  | none
  | found (m : RuleMatch)
  | other

/-- what `history_attributes` of a rule returned -/
inductive Contribution where
  | none
  /-- a mapping, and what `dict(attrs)` does -/
  | mapping (items : Except Exc (List (Key × Value)))
  | other

inductive Eff (Response : Type) : Type → Type where
  | clock : Eff Response Int
  | timeNs : Eff Response Nat
  | ruleEvaluate (rule : Rule) (event : RuleEvent) (ctx : RuleContext) : Eff Response Outcome
  | ruleAttributes (rule : Rule) (event : RuleEvent) (ctx : RuleContext) :
    Eff Response Contribution
  /-- `persist` of the sink `i` -/
  | sink (i : Nat) (m : RuleMatch) : Eff Response Unit
  /-- `history.append` -/
  | append (summary : Summary) (scopeKeys : List ScopeKey) (recordedAt : Int) : Eff Response Unit
  | block (scope : BlockScope) (a : BlockArgs) (ttl : Option Int) : Eff Response BlockEntry
  | unblock (scope : BlockScope) (reason revokedBy : Str) : Eff Response Int
  | firstActive (scopes : List BlockScope) : Eff Response (Option BlockEntry)
  | emit (event : AuditEvent) (level : Nat) : Eff Response Unit
  | getResponse : Eff Response Response

/-- a program over these calls -/
abbrev Routine (Response : Type) := Prog (Eff Response) Exc

/-- a call and its reply -/
abbrev Happening (Response : Type) := Event (Eff Response) Exc

structure BlockStore (σ : Type) where
  block : BlockScope → BlockArgs → Option Int → σ → Except Exc BlockEntry × σ
  unblock : BlockScope → Str → Str → σ → Except Exc Int × σ
  firstActive : List BlockScope → σ → Except Exc (Option BlockEntry) × σ

/-- rules, sinks and a view that do anything with the state; emission does not raise -/
structure Site (Response σ : Type) where
  clock : σ → Int
  timeNs : σ → Nat
  ruleEvaluate : Rule → RuleEvent → RuleContext → σ → Except Exc Outcome × σ
  ruleAttributes : Rule → RuleEvent → RuleContext → σ → Except Exc Contribution × σ
  sink : Nat → RuleMatch → σ → Except Exc Unit × σ
  append : Summary → List ScopeKey → Int → σ → Except Exc Unit × σ
  store : BlockStore σ
  getResponse : σ → Except Exc Response × σ

namespace Site

def handler {Response σ : Type} (site : Site Response σ) : Handler (Eff Response) Exc σ
  | _, .clock, s => (.ok (site.clock s), s)
  | _, .timeNs, s => (.ok (site.timeNs s), s)
  | _, .ruleEvaluate rule event ctx, s => site.ruleEvaluate rule event ctx s
  | _, .ruleAttributes rule event ctx, s => site.ruleAttributes rule event ctx s
  | _, .sink i m, s => site.sink i m s
  | _, .append summary scopeKeys recordedAt, s => site.append summary scopeKeys recordedAt s
  | _, .block scope a ttl, s => site.store.block scope a ttl s
  | _, .unblock scope reason revokedBy, s => site.store.unblock scope reason revokedBy s
  | _, .firstActive scopes, s => site.store.firstActive scopes s
  | _, .emit _ _, s => (.ok (), s)
  | _, .getResponse, s => site.getResponse s

/-- a site where nothing happens -/
def quiet : Site Unit Unit where
  clock _ := 0
  timeNs _ := 0
  ruleEvaluate _ _ _ s := (.ok .none, s)
  ruleAttributes _ _ _ s := (.ok .none, s)
  sink _ _ s := (.ok (), s)
  append _ _ _ s := (.ok (), s)
  store := {
    block := fun _ _ _ s => (.error .typeError, s)
    unblock := fun _ _ _ s => (.ok 0, s)
    firstActive := fun _ s => (.ok none, s) }
  getResponse s := (.ok (), s)

end Site

end SecAudit
