import SecAudit.Core.Config
import SecAudit.Core.Coverage
import SecAudit.Django.Events
import SecAudit.Django.Request

/-!
# What is recorded of a request

* `buildRequestInfo`  the ids, the address and the URL of a request, scrubbed;
* `addUserIdentity` the identity of the user;
* `Exchange`        a request and its response, and what the recording asks of Django;
* `AuditMiddleware` the settings of the middleware;
* `recordedEvent`   the event of an exchange, when one is recorded;
* `getItem_scrubbed`, `identity_user`  what the base holds, and what the identity adds.
-/

set_option linter.unusedVariables false

namespace SecAudit
open Py

/-! ## the base of a request -/

/-- the items under string keys -/
def stringItems (l : List (Key × Value)) : List (Str × Value) :=
  l.filterMap fun e => match e.1 with
    | .str k => some (k, e.2)
    | .other _ => none

/-- `str(d.get(k, ''))`, of a dict of strings -/
def baseText (k : Str) (base : List (Str × Value)) : Str :=
  match getItem k base with
  | some (.str s) => s
  | _ => []

/-- the `data` of `build_request_info` -/
def requestData {lib : IpLibrary} (proxyConfig : TrustedProxyConfig lib) (META : List (Str × Str))
    (requestId sessionId url path method : Str) : List (Str × Value) :=
  let client := resolveClientIp proxyConfig META
  [(str "request_id", .str requestId), (str "session_id", .str sessionId), (str "url", .str url),
    (str "srcip", .str client.ip), (str "path", .str path), (str "method", .str method),
    (str "trusted_route", .bool client.trustedRoute)]

/-- `build_request_info` under the context `active`, where `generate_id` gives `fresh` -/
def buildRequestInfo {lib : IpLibrary} (frames : Nat) (active : Option AuditContext) (fresh : Str)
    (method path url : Str) (META : List (Str × Str)) (config : CoreAuditConfig)
    (proxyConfig : TrustedProxyConfig lib) (requestId : Option Str) (sessionId : Str) :
    Except Exc (List (Str × Value)) := do
  let given := ((active.map AuditContext.requestId).filter fun s => decide (s ≠ [])).or
    (requestId.filter fun s => decide (s ≠ []))
  let data := requestData proxyConfig META (given.getD fresh) sessionId url path method
  let scrubbed ← scrub config.redaction frames (.mapping (data.map fun e => (.str e.1, e.2)))
  match scrubbed with
  | .mapping l => return stringItems l
  | _ => throw .typeError

/-! ## the identity of the user -/

/-- `d[k] = v` of a mapping -/
def setKey (k : Str) (v : Value) : List (Key × Value) → List (Key × Value)
  | [] => [(.str k, v)]
  | (.str s, w) :: l => if s = k then (.str s, v) :: l else (.str s, w) :: setKey k v l
  | (.other t, w) :: l => (.other t, w) :: setKey k v l

/-- `data` with a username, unless that is empty, and with an id, unless that is `None` -/
def withIdentity (data : List (Str × Value)) (username : Str) (userId : Option Str) :
    List (Str × Value) :=
  let data := if username = [] then data else setItem (str "username") (.str username) data
  let data := match userId with
    | some u => setItem (str "user_id") (.str u) data
    | none => data
  let actor := mappingItems (getItem (str "actor") data)
  let actor := match userId with
    | some u => setKey (str "id") (.str u) actor
    | none => actor
  let actor := if username = [] then actor else setKey (str "name") (.str username) actor
  setItem (str "actor") (.mapping actor) data

/-- `_add_user_identity`; the username is read only where it is recorded -/
def addUserIdentity (includeUsernames : Bool) (data : List (Str × Value)) (user : User) :
    Except Exc (List (Str × Value)) :=
  if user.truthy then
    (if includeUsernames then user.getUsername.getD (.ok []) else .ok []).map fun username =>
      withIdentity data username (user.pk.or user.id)
  else .ok data

/-! ## the middleware -/

/-- the keys of `audit_route_info`, `audit_drf_info` and `capture_request_body` -/
def INFO_KEYS : List Str :=
  [str "route_name", str "route_pattern"] ++ DRF_FIELDS ++
    [str "request.body", str "request.body.parse_status"]

/-- what the three add to the base of a request -/
structure AddedInfo where
  items : List (Str × Value)
  keys : ∀ e ∈ items, e.1 ∈ INFO_KEYS

structure Exchange where
  request : Request
  /-- the context around the middleware -/
  active : Option AuditContext := none
  /-- `build_absolute_uri`, of a path or of none -/
  absoluteUri : Option Str → Except Exc Str
  info : Except Exc AddedInfo
  /-- the status of the response -/
  status : Int
  /-- `request.user` after the view -/
  user : Except Exc (Option User)
  /-- whether a response that is no error is sampled -/
  sampled : Bool := true
  durationNs : Nat
  timestampNs : Nat
  freshId : Str
  freshSession : Str

structure AuditMiddleware (lib : IpLibrary) where
  core : CoreAuditConfig
  ignorePaths : List (Str → Bool) := []
  ignoreStatusCodes : List Int := []
  logOkResponses : Bool := true
  schemaVersion : Str
  django : DjangoAuditConfig lib
  /-- `has_rule_event_consumers()` -/
  hasConsumers : Bool := true

/-- `_request_path` -/
def requestPath (request : Request) : Str := request.pathInfo.getD request.path

/-- `_request_url` -/
def requestUrl (absoluteUri : Option Str → Except Exc Str) (path : Str) : Except Exc Str :=
  let uri := match absoluteUri (some path) with
    | .error .typeError => absoluteUri none
    | r => r
  uri.map fun u => u.takeWhile fun c => decide (c ≠ cp '?')

/-- the type of the event of a response -/
def responseEventType (status : Int) : Str :=
  if status ≥ 500 then str "http.response.server_error"
  else if status ≥ 400 then str "http.response.client_error"
  else if status ≥ 300 then str "http.response.redirect"
  else str "http.response.success"

section
variable (py : Objects) (repr : Str → Str) (frames : Nat) {lib : IpLibrary}
  (mw : AuditMiddleware lib) (x : Exchange)

/-- `_build_base_info`: the audit-session id and the base -/
def buildBaseInfo : Except Exc (Str × List (Str × Value)) := do
  let session ← getAuditSessionId x.freshSession x.request mw.django.emitSessionId
  let path := requestPath x.request
  let url ← requestUrl x.absoluteUri path
  let base ← buildRequestInfo frames x.active x.freshId x.request.method path url x.request.META
    mw.core mw.django.trustedProxyConfig none session.1
  let info ← x.info
  return (session.1, updateItems base info.items)

/-- the context of `_prepare_audit_context` -/
def auditContext (sessionId : Str) (base : List (Str × Value)) : AuditContext where
  requestId := baseText (str "request_id") base
  sessionId := sessionId
  url := baseText (str "url") base
  path := baseText (str "path") base
  srcip := baseText (str "srcip") base
  method := x.request.method

/-- `event_base` of `_record_response` -/
def eventBase (base : List (Str × Value)) : Except Exc (List (Str × Value)) := do
  let base := setItem (str "duration_ns") (.int x.durationNs)
    (setItem (str "status") (.int x.status) base)
  let user ← x.user
  match user with
  | some user =>
    if user.isAuthenticated then addUserIdentity mw.django.includeUsernames base user
    else return base
  | none => return base

/-- `_record_response`, `_record_non_error` and `_record`: the event, unless none is built -/
def recordResponse (sessionId : Str) (base : List (Str × Value)) :
    Except Exc (Option AuditEvent) :=
  if x.status ∈ mw.ignoreStatusCodes then .ok none
  else do
    let data ← eventBase mw x base
    if x.status < 400 && !(mw.logOkResponses && x.sampled) && !mw.hasConsumers then return none
    let event ← buildAuditEvent py (some (auditContext x sessionId base)) repr frames x.timestampNs
      (str "http.response") (responseEventType x.status) data mw.schemaVersion
      mw.django.includeUsernames []
    return some event

/-- the event that `AuditMiddleware` records: whatever raises, the response is returned as it is -/
def recordedEvent : Option AuditEvent :=
  if mw.ignorePaths.any (fun pattern => pattern (requestPath x.request)) then none
  else match buildBaseInfo frames mw x with
    | .error _ => none
    | .ok (sessionId, base) => match recordResponse py repr frames mw x sessionId base with
      | .error _ => none
      | .ok event => event

end

/-! ## what the base holds -/

theorem shown_ne {red : Redaction} {k s : Str} (h : s ≠ []) : shown red k s ≠ [] := by
  unfold shown
  split
  · decide
  · exact h

/-- a text is found as the scrub leaves it -/
theorem getItem_scrubbed {red : Redaction} {n : Nat} {k : Str} : ∀ {l : List (Str × Value)}
    {l' : List (Key × Value)},
    List.Forall₂ (ItemScrubbed red n) (l.map fun e => (.str e.1, e.2)) l' →
    (getItem k l = none → getItem k (stringItems l') = none) ∧
    ∀ s, getItem k l = some (.str s) → getItem k (stringItems l') = some (.str (shown red k s))
  | [], l', h => by
    cases h
    exact ⟨fun _ => rfl, fun s hs => by cases hs⟩
  | (key, v) :: l, l', h => by
    rw [List.map_cons] at h
    cases h with
    | @cons _ e' _ t he ht =>
      obtain ⟨key', w⟩ := e'
      obtain rfl : key' = .str key := he.1
      have hitems : stringItems ((Key.str key, w) :: t) = (key, w) :: stringItems t := rfl
      by_cases hk : key = k
      · subst hk
        rw [hitems, getItem_cons_same, getItem_cons_same]
        refine ⟨fun h => (by cases h), fun s hs => ?_⟩
        obtain rfl : v = .str s := Option.some.inj hs
        rw [scrubbed_text he]
      · rw [hitems, getItem_cons_other _ _ hk, getItem_cons_other _ _ hk]
        exact getItem_scrubbed ht

theorem requestInfo_item {lib : IpLibrary} {frames : Nat} {active : Option AuditContext}
    {fresh method path url sessionId : Str} {META : List (Str × Str)} {config : CoreAuditConfig}
    {proxyConfig : TrustedProxyConfig lib} {requestId : Option Str} {base : List (Str × Value)}
    (h : buildRequestInfo frames active fresh method path url META config proxyConfig requestId
      sessionId = .ok base) : ∃ given, ∀ k,
    (getItem k (requestData proxyConfig META given sessionId url path method) = none →
      getItem k base = none) ∧
    ∀ s, getItem k (requestData proxyConfig META given sessionId url path method) = some (.str s) →
      getItem k base = some (.str (shown config.redaction k s)) := by
  unfold buildRequestInfo at h
  obtain ⟨scrubbed, hs, h⟩ := ok_of_bind h
  obtain ⟨m, l', rfl, hl⟩ := scrub_mapping hs
  rw [← Except.ok.inj h]
  exact ⟨_, fun k => getItem_scrubbed hl⟩

/-! ## what the identity adds -/

theorem valueAt_setKey_same (k : Str) (v : Value) : ∀ l : List (Key × Value),
    valueAt k (setKey k v l) = some v
  | [] => by simp [valueAt, setKey]
  | (.str s, w) :: l => by
    unfold setKey
    by_cases hs : s = k
    · rw [if_pos hs]
      simp [valueAt, hs]
    · rw [if_neg hs]
      have ih := valueAt_setKey_same k v l
      unfold valueAt at ih ⊢
      rw [List.findSome?_cons_of_isNone (by simp [hs])]
      exact ih
  | (.other t, w) :: l => valueAt_setKey_same k v l

theorem valueAt_setKey_other {k k' : Str} (v : Value) (h : k ≠ k') :
    ∀ l : List (Key × Value), valueAt k' (setKey k v l) = valueAt k' l
  | [] => by simp [valueAt, setKey, h]
  | (.str s, w) :: l => by
    unfold setKey
    by_cases hs : s = k
    · rw [if_pos hs]
      subst hs
      simp [valueAt, h]
    · rw [if_neg hs]
      have ih := valueAt_setKey_other v h l
      unfold valueAt at ih ⊢
      rw [List.findSome?_cons, List.findSome?_cons, ih]
  | (.other t, w) :: l => valueAt_setKey_other v h l

/-- the id that `_add_user_identity` records -/
def recordedUserId (user : User) : Str :=
  if user.truthy then (user.pk.or user.id).getD [] else []

section
variable {includeUsernames : Bool} {base data : List (Str × Value)} {user : User}

theorem addUserIdentity_cases (h : addUserIdentity includeUsernames base user = .ok data) :
    (user.truthy = true ∧ ∃ username, data = withIdentity base username (user.pk.or user.id)) ∨
      (user.truthy = false ∧ data = base) := by
  unfold addUserIdentity at h
  split at h
  · rename_i ht
    generalize (if includeUsernames then user.getUsername.getD (.ok []) else .ok []) = name at h
    cases name with
    | error e => cases h
    | ok username => exact .inl ⟨ht, username, (Except.ok.inj h).symm⟩
  · rename_i ht
    exact .inr ⟨Bool.eq_false_iff.mpr ht, (Except.ok.inj h).symm⟩

/-- what is under another key than the username is there after it too -/
theorem getItem_withUsername {k username : Str} (hk : k ≠ str "username") :
    getItem k (if username = [] then base else setItem (str "username") (.str username) base)
      = getItem k base := by
  split
  · rfl
  · exact getItem_setItem_other _ _ hk

theorem identity_frame (h : addUserIdentity includeUsernames base user = .ok data) {k : Str}
    (hk : k ∉ [str "username", str "user_id", str "actor"]) :
    getItem k data = getItem k base := by
  simp only [List.mem_cons, List.not_mem_nil, or_false, not_or] at hk
  obtain ⟨hname, hid, hactor⟩ := hk
  rcases addUserIdentity_cases h with ⟨-, username, rfl⟩ | ⟨-, rfl⟩
  · unfold withIdentity
    rw [getItem_setItem_other _ _ hactor]
    cases user.pk.or user.id with
    | none => exact getItem_withUsername hname
    | some u => exact (getItem_setItem_other _ _ hid).trans (getItem_withUsername hname)
  · rfl

/-- what `user.id` is read from -/
def userIdOf (py : Objects) (data : List (Str × Value)) : Option Value :=
  firstOf py (getItem (str "user_id") data)
    (valueAt (str "id") (mappingItems (getItem (str "actor") data)))

theorem userIdOf_none {py : Objects} (hid : getItem (str "user_id") base = none)
    (hactor : getItem (str "actor") base = none) : userIdOf py base = none := by
  unfold userIdOf
  rw [hid, hactor]
  rfl

/-- **the id of the user** is read back from the data, unless it is empty -/
theorem identity_user {py : Objects} (h : addUserIdentity includeUsernames base user = .ok data)
    (hid : getItem (str "user_id") base = none) (hactor : getItem (str "actor") base = none) :
    (userIdOf py data).filter (fun v => !blankValue v) = textValue (recordedUserId user) := by
  unfold recordedUserId
  rcases addUserIdentity_cases h with ⟨ht, username, rfl⟩ | ⟨ht, rfl⟩
  · rw [if_pos ht]
    have hname : ∀ l : List (Key × Value), valueAt (str "id") (if username = [] then l
        else setKey (str "name") (.str username) l) = valueAt (str "id") l := by
      intro l
      split
      · rfl
      · exact valueAt_setKey_other _ (by decide) l
    unfold userIdOf withIdentity
    rw [getItem_setItem_other _ _ (by decide), getItem_setItem_same]
    cases user.pk.or user.id with
    | none =>
      dsimp only
      rw [getItem_withUsername (by decide), getItem_withUsername (by decide), hid, hactor,
        mappingItems, hname]
      rfl
    | some u =>
      dsimp only
      rw [getItem_setItem_same, mappingItems, hname, valueAt_setKey_same]
      unfold firstOf
      dsimp only
      rw [ite_self]
      cases u <;> rfl
  · rw [ht, userIdOf_none hid hactor]
    rfl

end

end SecAudit
