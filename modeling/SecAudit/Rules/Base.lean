import SecAudit.Rules.Events

/-!
# Matches

* `RuleMatch`       what a rule found, with the identity it read off the event;
* `makeMatch`       the match of an event.
-/

set_option linter.unusedVariables false

namespace SecAudit
open Py

/-- times are in milliseconds -/
structure RuleMatch where
  ruleName : Str
  severity : Int
  matchedAt : Int
  message : Str
  eventType : Option Str := none
  requestId : Option Str := none
  sessionId : Option Str := none
  srcip : Option Str := none
  userId : Option Str := none
  decision : Option Str := none
  subject : Option Str := none
  tags : List Str := []
  metadata : List (Key × Value) := []

/-- `s or None` -/
def orNone (s : Str) : Option Str := if s = [] then none else some s

/-- `s or ''` -/
def orEmpty (s : Option Str) : Str := s.getD []

theorem orEmpty_orNone (s : Str) : orEmpty (orNone s) = s := by
  unfold orNone orEmpty
  split
  · rename_i h
    exact h.symm
  · rfl

/-- `make_match` -/
def makeMatch (b : Builtins) (ruleName : Str) (severity now : Int) (message : Str)
    (event : RuleEvent) (tags : List Str) (metadata : List (Key × Value))
    (decision subject : Option Str) : RuleMatch where
  ruleName
  severity
  matchedAt := now
  message
  eventType := orNone event.eventType
  requestId := orNone (event.requestId b)
  sessionId := orNone (event.sessionId b)
  srcip := orNone (event.source b).address
  userId := orNone (event.actor b).id
  decision
  subject
  tags
  metadata

end SecAudit
