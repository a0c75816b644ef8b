import SecAudit.Core.Plain
import SecAudit.Rules.Scopes

/-!
# The history summary of an event

* `historyItems`    the fields of an event that its history keeps;
* `createHistorySummary`  those fields, scrubbed and projected;
* `createHistorySummary_ok`  every event has a summary.
-/

set_option linter.unusedVariables false

namespace SecAudit
open Py

/-- `_HISTORY_WHITELIST` -/
def HISTORY_WHITELIST : List Str :=
  [str "event_type", str "request_id", str "user_id", str "username", str "session_id",
    str "srcip", str "route_name", str "route_pattern", str "route", str "model_label",
    str "app_label", str "model", str "object_id", str "action", str "crud_action",
    str "changed_fields", str "status", str "drf_action", str "drf_basename",
    str "drf_view_class", str "drf_serializer_class", str "drf_authentication_classes",
    str "drf_permission_classes", str "drf_throttle_scope"]

/-- `_SCOPE_KEY_FIELDS` -/
def SCOPE_KEY_FIELDS : List Str :=
  [str "session_id", str "srcip", str "user_id", str "username", str "route"]

/-- `{key: raw[key] for key in keys if raw.get(key) not in (None, '')}` -/
def selectItems (keys : List Str) (raw : List (Str × Json)) : List (Str × Json) :=
  keys.filterMap fun key => (filled key raw).map fun v => (key, v)

/-- the selected items of a nested mapping, when there are any -/
def selectNested (container : Str) (keys : List Str) (raw : List (Str × Json)) :
    List (Str × Json) :=
  match getItem container raw with
  | some (.obj value) =>
    if selectItems keys value = [] then [] else [(container, .obj (selectItems keys value))]
  | _ => []

def historyItems (raw : List (Str × Json)) : List (Str × Json) :=
  selectItems HISTORY_WHITELIST raw ++
    (selectNested (str "actor") [str "id", str "name"] raw ++
      selectNested (str "target") [str "app", str "model", str "object_id"] raw)

section
variable (sensitiveKeys : List Str) (valuePatterns : List (Str → Bool))

/-- `create_history_summary`; the stack has room for the fields of an event -/
def createHistorySummary (event : RuleEvent) : Except Exc Summary := do
  let summary := Json.obj (historyItems event.toDict)
  let scrubbed ← scrub ⟨sensitiveKeys, valuePatterns, SCOPE_KEY_FIELDS⟩ (depth summary)
    (Value.ofJson summary)
  let safe ← jsonSafe (depth summary) scrubbed
  match safe with
  | .obj l => return l
  | _ => return []

theorem createHistorySummary_ok (event : RuleEvent) :
    ∃ summary, createHistorySummary sensitiveKeys valuePatterns event = .ok summary := by
  unfold createHistorySummary
  obtain ⟨w, hw, hp⟩ := @scrub_plain ⟨sensitiveKeys, valuePatterns, SCOPE_KEY_FIELDS⟩ _ _
    (plain_ofJson (.obj (historyItems event.toDict)) _ le_rfl)
  obtain ⟨j, hj⟩ := @project_plain {} w _ 0 hp
  simp only [bind, Except.bind, hw, show jsonSafe _ w = .ok j from hj]
  split
  · exact ⟨_, rfl⟩
  · exact ⟨_, rfl⟩

end

end SecAudit
