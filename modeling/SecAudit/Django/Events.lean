import SecAudit.Core.Builtins
import SecAudit.Core.Events

/-!
# The events of the Django integration

* `Objects`         what the builtins make of an object that is no string, number or container;
* `addAll`          the attributes that are not blank, in their order;
* `buildLogAttributes`, `buildAuditEvent`  the attributes of an event, and the event;
* `getItem_addAll`  what an attribute holds;
* `attribute_built` so it is for the attributes of an event.
-/

set_option linter.unusedVariables false

namespace SecAudit
open Py

/-- `bool`, `str` and `int` of the other objects -/
structure Objects where
  truthy : Value → Bool
  str : Value → Except Exc Str
  int : Value → Except Exc Int

structure AuditContext where
  requestId : Str
  sessionId : Str
  url : Str := []
  path : Str := []
  srcip : Str := []
  method : Str := []

section
variable (py : Objects)

/-- `bool(v)` -/
def truthyValue : Value → Bool
  | .none => false
  | .bool x => x
  | .int i => i != 0
  | .str s => !s.isEmpty
  | .mapping l => !l.isEmpty
  | .seq l => !l.isEmpty
  | v => py.truthy v

/-- `str(v)` -/
def strValue : Value → Except Exc Str
  | .str s => .ok s
  | .int i => .ok (decimalInt i)
  | v => py.str v

/-- `v or w`, where nothing is `None` -/
def firstOf (v w : Option Value) : Option Value :=
  match v with
  | some v => if truthyValue py v then some v else w
  | none => w

/-- `_as_int` -/
def asInt : Option Value → Except Exc (Option Int)
  | none => .ok none
  | some .none => .ok none
  | some (.bool _) => .ok none
  | some (.str []) => .ok none
  | some (.int i) => .ok (some i)
  | some v => match py.int v with
    | .ok i => .ok (some i)
    | .error .typeError => .ok none
    | .error (.valueError _) => .ok none
    | .error .conversionError => .ok none
    | .error e => .error e

end

/-! ## attributes -/

/-- `value in (None, '')` -/
def blankValue : Value → Bool
  | .none => true
  | .str [] => true
  | _ => false

/-- `_add` -/
def add (target : List (Str × Value)) (key : Str) (value : Option Value) : List (Str × Value) :=
  match value.filter fun v => !blankValue v with
  | some v => setItem key v target
  | none => target

/-- one `_add` after the other -/
def addAll (target : List (Str × Value)) (entries : List (Str × Option Value)) :
    List (Str × Value) :=
  entries.foldl (fun target e => add target e.1 e.2) target

/-- `s.rsplit('.', 1)[-1]` -/
def afterLastDot (s : Str) : Str := (s.reverse.takeWhile fun c => decide (c ≠ cp '.')).reverse

def startsWith (p s : Str) : Bool := p.isPrefixOf s

def endsWith (p s : Str) : Bool := p.isSuffixOf s

/-- `_action` -/
def actionOf (eventType : Str) : Option Str :=
  if startsWith (str "http.response.") eventType then some (str "response")
  else if startsWith (str "auth.login.") eventType then some (str "login")
  else if startsWith (str "auth.logout.") eventType then some (str "logout")
  else if startsWith (str "model.") eventType then some (afterLastDot eventType)
  else none

/-- `_outcome` -/
def outcomeOf (eventType : Str) : Option Str :=
  if endsWith (str ".success") eventType then some (str "success")
  else if endsWith (str ".failed") eventType || endsWith (str ".client_error") eventType ||
      endsWith (str ".server_error") eventType then some (str "failure")
  else none

/-- the value of a key that is a string -/
def valueAt (k : Str) (l : List (Key × Value)) : Option Value :=
  l.findSome? fun p => match p.1 with
    | .str s => if s = k then some p.2 else none
    | .other _ => none

/-- the items of a mapping, none of anything else -/
def mappingItems : Option Value → List (Key × Value)
  | some (.mapping l) => l
  | _ => []

def isMapping : Option Value → Bool
  | some (.mapping _) => true
  | _ => false

/-- `_DRF_FIELDS` -/
def DRF_FIELDS : List Str :=
  [str "drf_action", str "drf_basename", str "drf_view_class", str "drf_serializer_class",
    str "drf_authentication_classes", str "drf_permission_classes", str "drf_throttle_scope"]

section
variable (py : Objects) (source : List (Str × Value))

/-- `source.get(k) or …`, over the keys -/
def firstAt (keys : List Str) (last : Option Value) : Option Value :=
  keys.foldr (fun k rest => firstOf py (getItem k source) rest) last

/-- `user.name` of `_add_identity` -/
def userName (includeUsernames : Bool) : Except Exc (Option Value) :=
  if includeUsernames then
    let actor := getItem (str "actor") source
    let actorName := firstOf py (getItem (str "username") source)
      (valueAt (str "name") (mappingItems actor))
    let actorName := match actorName with
      | none => if isMapping actor then none else actor
      | some .none => if isMapping actor then none else actor
      | v => v
    match actorName with
    | none => .ok none
    | some .none => .ok none
    | some (.str s) => .ok (some (.str s))
    | some v => (strValue py v).map fun s => some (.str s)
  else .ok none

/-- the entries of `_add_identity` -/
def identityEntries (name : Option Value) : List (Str × Option Value) :=
  [(str "user.id", firstOf py (getItem (str "user_id") source)
      (valueAt (str "id") (mappingItems (getItem (str "actor") source)))),
    (str "user.name", name)]

/-- the entries of `_add_action` -/
def actionEntries (eventType : Str) : List (Str × Option Value) :=
  let action := mappingItems (getItem (str "action") source)
  [(str "action.name", firstOf py (valueAt (str "name") action) ((actionOf eventType).map .str)),
    (str "action.method", firstOf py (valueAt (str "method") action)
      (getItem (str "method") source)),
    (str "action.result", firstOf py (valueAt (str "result") action)
      (firstOf py (getItem (str "outcome") source) ((outcomeOf eventType).map .str))),
    (str "action.type", firstOf py (valueAt (str "type") action)
      (if startsWith (str "model.") eventType then some (.str eventType) else none))]

/-- `[str(value) for value in changed_fields if str(value)]` -/
def changedTexts : List Value → Except Exc (List Value)
  | [] => .ok []
  | v :: l => do
    let s ← strValue py v
    let rest ← changedTexts l
    return if s = [] then rest else .str s :: rest

/-- `changed_fields` of `_add_model` -/
def changedFields : Except Exc (Option Value) :=
  match getItem (str "changed_fields") source with
  | some (.seq l) => (changedTexts py l).map fun values =>
      if values.isEmpty then none else some (.seq values)
  | _ => .ok none

/-- the entries of `_add_model` -/
def modelEntries (eventType : Str) (changed : Option Value) : List (Str × Option Value) :=
  [str "model", str "app_label", str "model_label", str "object_id"].map
      (fun key => (key, getItem key source)) ++
    [(str "crud_action", firstOf py (getItem (str "crud_action") source)
      (if startsWith (str "model.") eventType then some (.str (afterLastDot eventType))
        else none)),
      (str "changed_fields", changed)]

/-- the entries of `build_log_attributes`, in their order, where the numbers, the name and the
changed fields are there -/
def logEntries (context : Option AuditContext) (eventType : Str) (status duration impact : Option Int)
    (name changed : Option Value) : List (Str × Option Value) :=
  [(str "request_id", firstAt py source [str "request_id"]
      (context.map fun c => .str c.requestId)),
    (str "session.id", firstAt py source [str "session_id"]
      (context.map fun c => .str c.sessionId)),
    (str "source.address", firstAt py source [str "source.address"]
      (getItem (str "srcip") source)),
    (str "http.request.method", firstAt py source [str "http.request.method"]
      (getItem (str "method") source)),
    (str "http.response.status_code", status.map .int),
    (str "url.full", firstAt py source [str "url.full"] (getItem (str "url") source)),
    (str "url.path", firstAt py source [str "url.path"] (getItem (str "path") source)),
    (str "http.route", firstAt py source [str "http.route", str "route_pattern"]
      (getItem (str "route") source)),
    (str "http.route_name", firstAt py source [str "http.route_name"]
      (getItem (str "route_name") source))] ++
  identityEntries py source name ++ actionEntries py source eventType ++
  modelEntries py source eventType changed ++
  DRF_FIELDS.map (fun key => (key, getItem key source)) ++
  [(str "request.body", getItem (str "request.body") source),
    (str "request.body.parse_status", getItem (str "request.body.parse_status") source),
    (str "outcome", firstAt py source [str "outcome"] ((outcomeOf eventType).map .str)),
    (str "duration_ns", duration.map .int),
    (str "impact.value", impact.map .int),
    (str "trace_id", getItem (str "trace_id") source),
    (str "span_id", getItem (str "span_id") source)]

end

section
variable (py : Objects) (context : Option AuditContext)

def buildLogAttributes (eventType : Str) (data : List (Str × Value)) (schemaVersion : Str)
    (includeUsernames : Bool) (overrides : List (Str × Value)) :
    Except Exc (List (Str × Value)) := do
  let source := updateItems data overrides
  let status ← asInt py (firstAt py source [str "http.response.status_code", str "status_code"]
    (getItem (str "status") source))
  let name ← userName py source includeUsernames
  let changed ← changedFields py source
  let duration ← asInt py (getItem (str "duration_ns") source)
  let impact ← asInt py (firstAt py source [str "impact.value"]
    (getItem (str "impact_value") source))
  return addAll [(str "event_type", .str eventType), (str "schema_version", .str schemaVersion)]
    (logEntries py source context eventType status duration impact name changed)

/-- `build_audit_event` at the time `now` -/
def buildAuditEvent (repr : Str → Str) (frames now : Nat) (body eventType : Str)
    (data : List (Str × Value)) (schemaVersion : Str) (includeUsernames : Bool)
    (overrides : List (Str × Value)) : Except Exc AuditEvent := do
  let attributes ← buildLogAttributes py context eventType data schemaVersion includeUsernames
    overrides
  AuditEvent.make repr frames eventType schemaVersion body
    (attributes.map fun p => (.str p.1, p.2)) now none

end

/-! ## what an attribute holds -/

theorem getItem_add {k key : Str} {value : Option Value} {target : List (Str × Value)} :
    getItem k (add target key value)
      = (if key = k then value.filter fun v => !blankValue v else none).or (getItem k target) := by
  unfold add
  rcases value.filter fun v => !blankValue v with _ | v
  · rw [ite_self]
    rfl
  · dsimp only
    by_cases h : key = k
    · subst h
      rw [if_pos rfl, getItem_setItem_same]
      rfl
    · rw [if_neg h, getItem_setItem_other _ _ (Ne.symm h)]
      rfl

/-- an attribute holds what its entry adds, if that is not blank -/
theorem getItem_addAll {k : Str} : ∀ {entries : List (Str × Option Value)}
    {target : List (Str × Value)}, (entries.map Prod.fst).Nodup →
    getItem k (addAll target entries)
      = ((getItem k entries).join.filter fun v => !blankValue v).or (getItem k target)
  | [], _, _ => rfl
  | (key, value) :: entries, target, h => by
    rw [List.map_cons, List.nodup_cons] at h
    show getItem k (addAll (add target key value) entries) = _
    rw [getItem_addAll h.2, getItem_add]
    by_cases hk : key = k
    · subst hk
      have hrest : getItem key entries = none := getItem_none_of h.1
      rw [hrest, getItem_cons_same, if_pos rfl]
      rfl
    · rw [getItem_cons_other _ _ hk, if_neg hk, Option.none_or]

/-- the attributes of an event -/
def LOG_KEYS : List Str :=
  [str "request_id", str "session.id", str "source.address", str "http.request.method",
    str "http.response.status_code", str "url.full", str "url.path", str "http.route",
    str "http.route_name", str "user.id", str "user.name", str "action.name",
    str "action.method", str "action.result", str "action.type", str "model", str "app_label",
    str "model_label", str "object_id", str "crud_action", str "changed_fields"] ++ DRF_FIELDS ++
  [str "request.body", str "request.body.parse_status", str "outcome", str "duration_ns",
    str "impact.value", str "trace_id", str "span_id"]

theorem keys_logEntries {py : Objects} {source : List (Str × Value)}
    {context : Option AuditContext} {eventType : Str} {status duration impact : Option Int}
    {name changed : Option Value} :
    (logEntries py source context eventType status duration impact name changed).map Prod.fst
      = LOG_KEYS := rfl

theorem logKeys_nodup : LOG_KEYS.Nodup := by decide +kernel

/-- the text that is left when it is not empty -/
def textValue (s : Str) : Option Value := if s = [] then none else some (.str s)

/-- what an attribute of an event holds: a text where its entry adds one, and nothing where it adds
nothing -/
def ReadsAs (attributes : List (Str × Json)) (k : Str) (v : Option Value) : Prop :=
  (v = none → getItem k attributes = none) ∧
    ∀ s, v = some (.str s) → getItem k attributes = some (.string s)

/-- **the attributes of an event**: each holds what the entry under its key adds -/
theorem attribute_built {py : Objects} {context : Option AuditContext} {repr : Str → Str}
    {frames now : Nat} {body eventType schemaVersion : Str} {data overrides : List (Str × Value)}
    {includeUsernames : Bool} {event : AuditEvent}
    (h : buildAuditEvent py context repr frames now body eventType data schemaVersion
      includeUsernames overrides = .ok event) : ∃ status duration impact name changed, ∀ k,
    k ≠ str "event_type" → k ≠ str "schema_version" → ReadsAs event.attributes k
      ((getItem k (logEntries py (updateItems data overrides) context eventType status duration
        impact name changed)).join.filter fun v => !blankValue v) := by
  unfold buildAuditEvent at h
  obtain ⟨attributes, ha, h⟩ := ok_of_bind h
  unfold buildLogAttributes at ha
  obtain ⟨status, -, ha⟩ := ok_of_bind ha
  obtain ⟨name, -, ha⟩ := ok_of_bind ha
  obtain ⟨changed, -, ha⟩ := ok_of_bind ha
  obtain ⟨duration, -, ha⟩ := ok_of_bind ha
  obtain ⟨impact, -, ha⟩ := ok_of_bind ha
  refine ⟨status, duration, impact, name, changed, fun k ht hs => ?_⟩
  have hadded : getItem k attributes
      = (getItem k (logEntries py (updateItems data overrides) context eventType status duration
        impact name changed)).join.filter fun v => !blankValue v := by
    rw [← Except.ok.inj ha, getItem_addAll (by rw [keys_logEntries]; exact logKeys_nodup),
      getItem_cons_other _ _ (Ne.symm ht), getItem_cons_other _ _ (Ne.symm hs)]
    exact Option.or_none
  obtain ⟨n, frozen, _, hc, he⟩ := AuditEvent.make_attributes h
  have hread : getItem k event.attributes = getItem k frozen := by
    rw [he]
    unfold withAuthoritative
    rw [getItem_setItem_other _ _ hs, getItem_setItem_other _ _ ht]
  obtain ⟨-, hnone, hsome⟩ := @getItem_canonicalized _ n _ k attributes [] frozen hc
  rw [← hadded]
  exact ⟨fun hv => hread.trans (hnone hv), fun s hv => hread.trans (hsome rfl s hv)⟩

end SecAudit
