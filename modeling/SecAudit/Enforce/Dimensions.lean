import SecAudit.Django.RequestInfo
import SecAudit.Rules.Survival

/-!
# The scopes of a request before and after the view

* `recordedEvent_steps`  how the event of an exchange comes about;
* `Identified`      an event whose attributes hold a session, an address and a user, and no raw key;
* `recorded_identity`  so does a recorded event, with what the scrubber left of the first two;
* `dimensions_agree`  before and after the view a request has the same scopes exactly when the
                    scrubber spares its address and its session, and its user has a key.
-/

set_option linter.unusedVariables false

namespace SecAudit
open Py

/-! ## the recorded event -/

section
variable {py : Objects} {repr : Str → Str} {frames : Nat} {lib : IpLibrary}
  {mw : AuditMiddleware lib} {x : Exchange} {event : AuditEvent}

theorem recordResponse_built {sessionId : Str} {base : List (Str × Value)}
    (h : recordResponse py repr frames mw x sessionId base = .ok (some event)) :
    ∃ data, eventBase mw x base = .ok data ∧
      buildAuditEvent py (some (auditContext x sessionId base)) repr frames x.timestampNs
        (str "http.response") (responseEventType x.status) data mw.schemaVersion
        mw.django.includeUsernames [] = .ok event := by
  unfold recordResponse at h
  split at h
  · cases h
  obtain ⟨data, hd, h⟩ := ok_of_bind h
  split at h
  · cases h
  obtain ⟨event', he, h⟩ := ok_of_bind h
  cases h
  exact ⟨data, hd, he⟩

theorem recordedEvent_steps (h : recordedEvent py repr frames mw x = some event) :
    ∃ (session : Str × Option Str) (url : Str) (base data : List (Str × Value)) (info : AddedInfo),
      getAuditSessionId x.freshSession x.request mw.django.emitSessionId = .ok session ∧
      buildRequestInfo frames x.active x.freshId x.request.method (requestPath x.request) url
        x.request.META mw.core mw.django.trustedProxyConfig none session.1 = .ok base ∧
      eventBase mw x (updateItems base info.items) = .ok data ∧
      buildAuditEvent py (some (auditContext x session.1 (updateItems base info.items))) repr frames
        x.timestampNs (str "http.response") (responseEventType x.status) data mw.schemaVersion
        mw.django.includeUsernames [] = .ok event := by
  unfold recordedEvent at h
  split at h
  · cases h
  rcases hb : buildBaseInfo frames mw x with e | ⟨sessionId, base'⟩
  · rw [hb] at h
    cases h
  rw [hb] at h
  dsimp only at h
  rcases hr : recordResponse py repr frames mw x sessionId base' with e | built
  · rw [hr] at h
    cases h
  rw [hr] at h
  obtain rfl : built = some event := h
  unfold buildBaseInfo at hb
  obtain ⟨session, hs, hb⟩ := ok_of_bind hb
  obtain ⟨url, -, hb⟩ := ok_of_bind hb
  obtain ⟨base, hbase, hb⟩ := ok_of_bind hb
  obtain ⟨info, -, hb⟩ := ok_of_bind hb
  cases hb
  obtain ⟨data, hd, he⟩ := recordResponse_built hr
  exact ⟨session, url, base, data, info, hs, hbase, hd, he⟩

/-- the id of the user, when one is authenticated -/
def recordedId (user : Option User) : Str :=
  match user with
  | some user => if user.isAuthenticated then recordedUserId user else []
  | none => []

theorem eventBase_cases {base data : List (Str × Value)} {user : Option User}
    (h : eventBase mw x base = .ok data) (hu : x.user = .ok user) :
    let base' := setItem (str "duration_ns") (.int x.durationNs)
      (setItem (str "status") (.int x.status) base)
    (recordedId user = [] ∧ data = base') ∨
      ∃ u, recordedId user = recordedUserId u ∧
        addUserIdentity mw.django.includeUsernames base' u = .ok data := by
  unfold eventBase at h
  rw [hu] at h
  unfold recordedId
  cases user with
  | none => exact .inl ⟨rfl, (Except.ok.inj h).symm⟩
  | some u =>
    replace h : (if u.isAuthenticated then addUserIdentity mw.django.includeUsernames _ u
      else .ok _) = .ok data := h
    dsimp only
    split at h
    · rename_i ha
      rw [if_pos ha]
      exact .inr ⟨u, rfl, h⟩
    · rename_i ha
      rw [if_neg ha]
      exact .inl ⟨rfl, (Except.ok.inj h).symm⟩

theorem eventBase_frame {base data : List (Str × Value)} {user : Option User}
    (h : eventBase mw x base = .ok data) (hu : x.user = .ok user) {k : Str}
    (hk : k ∉ [str "duration_ns", str "status", str "username", str "user_id", str "actor"]) :
    getItem k data = getItem k base := by
  simp only [List.mem_cons, List.not_mem_nil, or_false, not_or] at hk
  obtain ⟨hduration, hstatus, hrest⟩ := hk
  have hbase : getItem k (setItem (str "duration_ns") (.int x.durationNs)
      (setItem (str "status") (.int x.status) base)) = getItem k base := by
    rw [getItem_setItem_other _ _ hduration, getItem_setItem_other _ _ hstatus]
  rcases eventBase_cases h hu with ⟨-, rfl⟩ | ⟨u, -, hd⟩
  · exact hbase
  · rw [identity_frame hd (by simpa using hrest), hbase]

theorem eventBase_user {base data : List (Str × Value)} {user : Option User}
    (h : eventBase mw x base = .ok data) (hu : x.user = .ok user)
    (hid : getItem (str "user_id") base = none) (hactor : getItem (str "actor") base = none) :
    (userIdOf py data).filter (fun v => !blankValue v) = textValue (recordedId user) := by
  have hid' : getItem (str "user_id") (setItem (str "duration_ns") (.int x.durationNs)
      (setItem (str "status") (.int x.status) base)) = none := by
    rw [getItem_setItem_other _ _ (by decide), getItem_setItem_other _ _ (by decide), hid]
  have hactor' : getItem (str "actor") (setItem (str "duration_ns") (.int x.durationNs)
      (setItem (str "status") (.int x.status) base)) = none := by
    rw [getItem_setItem_other _ _ (by decide), getItem_setItem_other _ _ (by decide), hactor]
  rcases eventBase_cases h hu with ⟨he, rfl⟩ | ⟨u, he, hd⟩
  · rw [he, userIdOf_none hid' hactor']
    rfl
  · rw [he, identity_user hd hid' hactor']

/-- the keys that the scopes are read from, and that an event does not have -/
def RAW_KEYS : List Str :=
  [str "session_id", str "srcip", str "user_id", str "username", str "actor"]

/-- the attributes hold a session, an address and a user, each unless it is empty, and no raw key -/
structure Identified (event : AuditEvent) (session address user : Str) : Prop where
  session : ReadsAs event.attributes (str "session.id") (textValue session)
  address : ReadsAs event.attributes (str "source.address") (textValue address)
  user : ReadsAs event.attributes (str "user.id") (textValue user)
  raw : ∀ k ∈ RAW_KEYS, getItem k event.attributes = none

theorem filter_text (s : Str) :
    (some (.str s)).filter (fun v => !blankValue v) = textValue s := by
  cases s <;> rfl

/-- a text, or else one that is empty with it -/
theorem firstOf_text {s c : Str} (hc : s = [] → c = []) :
    (firstOf py (some (.str s)) (some (.str c))).filter (fun v => !blankValue v)
      = textValue s := by
  cases s with
  | nil =>
    rw [hc rfl]
    rfl
  | cons a s => rfl

theorem built_identity {context : AuditContext} {now : Nat} {body eventType schemaVersion : Str}
    {data : List (Str × Value)} {includeUsernames : Bool} {session address user : Str}
    (h : buildAuditEvent py (some context) repr frames now body eventType data schemaVersion
      includeUsernames [] = .ok event)
    (hs : getItem (str "session_id") data = some (.str session))
    (hc : session = [] → context.sessionId = [])
    (ha : getItem (str "srcip") data = some (.str address))
    (hna : getItem (str "source.address") data = none)
    (hu : (userIdOf py data).filter (fun v => !blankValue v) = textValue user) :
    Identified event session address user := by
  obtain ⟨status, duration, impact, name, changed, hall⟩ := attribute_built h
  constructor
  · have hentry : (getItem (str "session.id") (logEntries py (updateItems data []) (some context)
        eventType status duration impact name changed)).join
        = firstOf py (getItem (str "session_id") data) (some (.str context.sessionId)) := rfl
    rw [← @firstOf_text py session _ hc, ← hs, ← hentry]
    exact hall _ (by decide) (by decide)
  · have hentry : (getItem (str "source.address") (logEntries py (updateItems data [])
        (some context) eventType status duration impact name changed)).join
        = firstOf py (getItem (str "source.address") data) (getItem (str "srcip") data) := rfl
    rw [hna, ha] at hentry
    rw [← filter_text, show (some (Value.str address)) = firstOf py none (some (.str address))
      from rfl, ← hentry]
    exact hall _ (by decide) (by decide)
  · have hentry : (getItem (str "user.id") (logEntries py (updateItems data []) (some context)
        eventType status duration impact name changed)).join = userIdOf py data := rfl
    rw [← hu, ← hentry]
    exact hall _ (by decide) (by decide)
  · intro k hk
    obtain ⟨hlog, ht, hv⟩ := (by decide +kernel : ∀ k ∈ RAW_KEYS, k ∉ LOG_KEYS ∧
      k ≠ str "event_type" ∧ k ≠ str "schema_version") k hk
    refine (hall k ht hv).1 ?_
    rw [getItem_none_of (by rwa [keys_logEntries])]
    rfl

/-- **what a recorded event identifies**: the session and the address as the scrub leaves them, and
the user -/
theorem recorded_identity (h : recordedEvent py repr frames mw x = some event)
    {session : Str × Option Str} {user : Option User}
    (hs : getAuditSessionId x.freshSession x.request mw.django.emitSessionId = .ok session)
    (hu : x.user = .ok user) : Identified event
      (shown mw.core.redaction (str "session_id") session.1)
      (shown mw.core.redaction (str "srcip")
        (resolveClientIp mw.django.trustedProxyConfig x.request.META).ip)
      (recordedId user) := by
  obtain ⟨session', url, base, data, info, hs', hbase, hd, he⟩ := recordedEvent_steps h
  obtain rfl : session = session' := Except.ok.inj (hs.symm.trans hs')
  obtain ⟨given, hitem⟩ := requestInfo_item hbase
  have hinfo : ∀ {k : Str}, k ∉ INFO_KEYS → getItem k (updateItems base info.items)
      = getItem k base := by
    intro k hk
    refine getItem_updateItems_other fun hmem => hk ?_
    obtain ⟨e, hin, rfl⟩ := List.mem_map.mp hmem
    exact info.keys e hin
  refine built_identity he ?_ ?_ ?_ ?_ ?_
  · rw [eventBase_frame hd hu (by decide), hinfo (by decide)]
    exact (hitem _).2 _ rfl
  · intro hnil
    by_contra hne
    exact shown_ne hne hnil
  · rw [eventBase_frame hd hu (by decide), hinfo (by decide)]
    exact (hitem _).2 _ rfl
  · rw [eventBase_frame hd hu (by decide), hinfo (by decide)]
    exact (hitem _).1 rfl
  · refine eventBase_user hd hu ?_ ?_
    · rw [hinfo (by decide)]
      exact (hitem _).1 rfl
    · rw [hinfo (by decide)]
      exact (hitem _).1 rfl

end

/-! ## the scopes of an event -/

section
variable (b : Builtins) {event : AuditEvent}

/-- a raw key is cleaned from the text of its dotted key -/
theorem event_key {otel raw s : Str} (h : (otel, raw) ∈ OTEL_TO_RAW_ALIASES)
    (hraw : getItem raw event.attributes = none)
    (hs : ReadsAs event.attributes otel (textValue s)) :
    cleanKey b (getItem raw (RuleEvent.fromEvent b event).fields) = cleaned s := by
  have hne : raw ≠ str "event_type" :=
    (by decide : ∀ e ∈ OTEL_TO_RAW_ALIASES, e.2 ≠ str "event_type") (otel, raw) h
  have hfilled : filled raw event.attributes = none := by
    unfold filled
    rw [hraw]
    rfl
  unfold RuleEvent.fromEvent RuleEvent.ofSource
  rw [RuleEvent.getItem_make hne, getItem_normalize h, hfilled, hraw, Option.or_none]
  unfold filled textValue at *
  by_cases hnil : s = []
  · subst hnil
    rw [hs.1 rfl]
    rfl
  · rw [if_neg hnil] at hs
    rw [hs.2 s rfl]
    cases s with
    | nil => exact absurd rfl hnil
    | cons c s => rfl

theorem event_other {k : Str} (h : k ∉ OTEL_TO_RAW_ALIASES.map Prod.snd)
    (hne : k ≠ str "event_type") : getItem k (RuleEvent.fromEvent b event).fields
      = getItem k event.attributes := by
  unfold RuleEvent.fromEvent RuleEvent.ofSource
  rw [RuleEvent.getItem_make hne, getItem_normalize_other h]

variable {session address user : Str}

theorem Identified.userKey (h : Identified event session address user) :
    userKey b (RuleEvent.fromEvent b event).fields = cleaned user := by
  have hactor : getItem (str "actor") (RuleEvent.fromEvent b event).fields = none := by
    rw [event_other b (by decide) (by decide)]
    exact h.raw _ (by decide)
  have hname : getItem (str "username") (RuleEvent.fromEvent b event).fields = none := by
    rw [event_other b (by decide) (by decide)]
    exact h.raw _ (by decide)
  unfold SecAudit.userKey
  rw [event_key b (by decide) (h.raw _ (by decide)) h.user, hname,
    actorKeys_other b fun actor he => by rw [hactor] at he; cases he]
  exact orKey_none _

end

/-! ## the scopes of a summary -/

section
variable (b : Builtins)

theorem getItem_textItem_other {k v : Str} (k' : Str) (h : k' ≠ k) :
    getItem k (textItem k' v) = none := by
  unfold textItem
  split
  · rfl
  · exact getItem_cons_other _ _ h

theorem cleanKey_textItem (k v : Str) : cleanKey b (getItem k (textItem k v)) = cleaned v := by
  unfold textItem
  split
  · rename_i h
    rw [h]
    rfl
  · rw [getItem_cons_same]
    rfl

/-- the items of a summary before the view -/
def ingressItems (path method address session user : Str) : Summary :=
  [(str "path", .string path), (str "method", .string method)] ++ textItem (str "srcip") address ++
    textItem (str "session_id") session ++ textItem (str "user_id") user

variable {path method address session user : Str}

theorem getItem_ingressItems {k : Str} (hp : k ≠ str "path") (hm : k ≠ str "method") :
    getItem k (ingressItems path method address session user)
      = ((getItem k (textItem (str "srcip") address)).or
          (getItem k (textItem (str "session_id") session))).or
        (getItem k (textItem (str "user_id") user)) := by
  unfold ingressItems
  rw [getItem_append, getItem_append, getItem_append, getItem_cons_other _ _ (Ne.symm hp),
    getItem_cons_other _ _ (Ne.symm hm)]
  rfl

theorem ingress_address :
    cleanKey b (getItem (str "srcip") (ingressItems path method address session user))
      = cleaned address := by
  rw [getItem_ingressItems (by decide) (by decide),
    getItem_textItem_other (str "session_id") (by decide),
    getItem_textItem_other (str "user_id") (by decide), Option.or_none, Option.or_none]
  exact cleanKey_textItem b _ _

theorem ingress_session :
    cleanKey b (getItem (str "session_id") (ingressItems path method address session user))
      = cleaned session := by
  rw [getItem_ingressItems (by decide) (by decide),
    getItem_textItem_other (str "srcip") (by decide),
    getItem_textItem_other (str "user_id") (by decide), Option.none_or, Option.or_none]
  exact cleanKey_textItem b _ _

theorem ingress_user :
    userKey b (ingressItems path method address session user) = cleaned user := by
  have hid : cleanKey b (getItem (str "user_id") (ingressItems path method address session user))
      = cleaned user := by
    rw [getItem_ingressItems (by decide) (by decide),
      getItem_textItem_other (str "srcip") (by decide),
      getItem_textItem_other (str "session_id") (by decide), Option.none_or, Option.none_or]
    exact cleanKey_textItem b _ _
  have hother : ∀ k ∈ [str "username", str "actor"],
      getItem k (ingressItems path method address session user) = none := by
    intro k hk
    obtain ⟨hp, hm, ha, hs, hu⟩ := (by decide : ∀ k ∈ [str "username", str "actor"],
      k ≠ str "path" ∧ k ≠ str "method" ∧ str "srcip" ≠ k ∧ str "session_id" ≠ k ∧
        str "user_id" ≠ k) k hk
    rw [getItem_ingressItems hp hm, getItem_textItem_other _ ha, getItem_textItem_other _ hs,
      getItem_textItem_other _ hu]
    rfl
  unfold userKey
  rw [hid, hother (str "username") (by decide),
    actorKeys_other b fun actor he => by rw [hother _ (by decide)] at he; cases he]
  exact orKey_none _

end

/-! ## the agreement -/

namespace Redaction

/-- the scrub hides a text under a key -/
def redacts (red : Redaction) (k s : Str) : Bool :=
  red.sensitiveNorm (normalizeKey k) || red.isSensitiveValue s

end Redaction

theorem cleaned_shown_iff {red : Redaction} {k s : Str} : cleaned (shown red k s) = cleaned s ↔
    (red.redacts k s = true → strip s = REDACTED) := by
  unfold shown
  by_cases h : red.redacts k s = true
  · rw [show (if red.sensitiveNorm (normalizeKey k) || red.isSensitiveValue s then REDACTED else s)
      = REDACTED from if_pos h, cleaned_redacted, eq_comm]
    unfold cleaned
    constructor
    · intro he _
      split at he
      · cases he
      · exact Option.some.inj he
    · intro he
      have hs := he h
      rw [if_neg (by rw [hs]; decide), hs]
  · rw [show (if red.sensitiveNorm (normalizeKey k) || red.isSensitiveValue s then REDACTED else s)
      = s from if_neg h]
    exact iff_of_true rfl fun hr => absurd hr h

/-- the id of the user that is asked for before the view -/
def askedId (user : Option User) : Str :=
  match user with
  | some user => if user.isAuthenticated then user.pk.getD [] else []
  | none => []

/-- the id that is emitted for a request: the one its session stores -/
def emittedSession (emitSessionId : Bool) (request : Request) : Str :=
  if emitSessionId then
    match request.session with
    | .ok (some (some id)) => id
    | _ => []
  else []

section
variable {lib : IpLibrary} {config : TrustedProxyConfig lib} {emit : Bool} {request : Request}
  {summary : Summary}

theorem ingressUserId_ok {userId : Str} (h : ingressUserId request = .ok userId) :
    ∃ user, request.user = .ok user ∧ userId = askedId user := by
  unfold ingressUserId at h
  obtain ⟨user, hu, h⟩ := ok_of_bind h
  refine ⟨user, hu, ?_⟩
  cases user with
  | none => exact (Except.ok.inj h).symm
  | some user => exact (Except.ok.inj h).symm

theorem ingressSummary_items (h : ingressSummary config emit request = .ok summary) :
    ∃ session user, (if emit then readAuditSessionId request else .ok []) = .ok session ∧
      request.user = .ok user ∧ summary = ingressItems request.path request.method
        (resolveClientIp config request.META).ip session (askedId user) := by
  unfold ingressSummary at h
  cases emit with
  | false =>
    obtain ⟨session, hs, h⟩ := ok_of_bind h
    obtain ⟨userId, hid, h⟩ := ok_of_bind h
    obtain ⟨user, hu, rfl⟩ := ingressUserId_ok hid
    exact ⟨session, user, hs, hu, (Except.ok.inj h).symm⟩
  | true =>
    obtain ⟨session, hs, h⟩ := ok_of_bind h
    obtain ⟨userId, hid, h⟩ := ok_of_bind h
    obtain ⟨user, hu, rfl⟩ := ingressUserId_ok hid
    exact ⟨session, user, hs, hu, (Except.ok.inj h).symm⟩

/-- a session, if there is one, that stores an audit-session id -/
def StoresId (request : Request) : Prop :=
  ∀ stored, request.session = .ok (some stored) → ∃ id, stored = some id ∧ id ≠ []

/-- the id that is read before the view is the one that is emitted -/
theorem session_emitted {fresh session : Str} {emitted : Str × Option Str}
    (hstore : StoresId request)
    (hs : (if emit then readAuditSessionId request else .ok []) = .ok session)
    (he : getAuditSessionId fresh request emit = .ok emitted) :
    session = emittedSession emit request ∧ emitted.1 = emittedSession emit request := by
  unfold emittedSession
  cases emit with
  | false =>
    cases hs
    cases he
    exact ⟨rfl, rfl⟩
  | true =>
    obtain ⟨found, hf, hs⟩ := ok_of_bind (show request.session >>= _ = _ from hs)
    unfold getAuditSessionId at he
    rw [if_pos rfl, hf] at he
    rw [if_pos rfl, hf]
    cases found with
    | none =>
      cases hs
      cases he
      exact ⟨rfl, rfl⟩
    | some stored =>
      obtain ⟨id, rfl, hid⟩ := hstore stored hf
      cases hs
      refine ⟨rfl, ?_⟩
      dsimp only [bind, Except.bind] at he
      rw [Option.filter_some_pos (by simpa using hid)] at he
      rw [← Except.ok.inj he]

end

/-! ## keys and scopes -/

section
variable (b : Builtins)

/-- the readers of the scopes a client is blocked under -/
def blockReaders : List Reader :=
  (defaultReaders b).filter fun x => defaultEligible x.1 && allowed none x.1

theorem blockReaders_eq : blockReaders b = [(str "user", userKey b),
    (str "session", fun summary => cleanKey b (getItem (str "session_id") summary)),
    (str "ip", fun summary => cleanKey b (getItem (str "srcip") summary))] := rfl

/-- what the readers find is cleaned from a user, a session and an address -/
structure Keyed (summary : Summary) (user session address : Str) : Prop where
  user : userKey b summary = cleaned user
  session : cleanKey b (getItem (str "session_id") summary) = cleaned session
  address : cleanKey b (getItem (str "srcip") summary) = cleaned address

variable {b} {s s' : Summary} {user session address user' session' address' : Str}

theorem blockReaders_nodup : ((blockReaders b).map Prod.fst).Nodup :=
  (by decide : [str "user", str "session", str "ip"].Nodup)

theorem Keyed.same_iff (h : Keyed b s user session address)
    (h' : Keyed b s' user' session' address') :
    (∀ p, p ∈ readPairs (blockReaders b) s ↔ p ∈ readPairs (blockReaders b) s') ↔
      cleaned user' = cleaned user ∧ cleaned session' = cleaned session ∧
        cleaned address' = cleaned address := by
  rw [readPairs_same_iff blockReaders_nodup, blockReaders_eq]
  simp only [List.forall_mem_cons, List.not_mem_nil, false_implies, implies_true, and_true]
  rw [h.user, h'.user, h.session, h'.session, h.address, h'.address]
  exact and_congr eq_comm (and_congr eq_comm eq_comm)

theorem Keyed.mem_session (h : Keyed b s user session address) {k : Str} :
    (str "session", k) ∈ readPairs (blockReaders b) s ↔ k ∈ cleaned session := by
  have hx : ((str "session", fun summary => cleanKey b (getItem (str "session_id") summary))
      : Reader) ∈ blockReaders b := by
    rw [blockReaders_eq]
    exact List.mem_cons_of_mem _ List.mem_cons_self
  rw [← h.session]
  exact mem_readPairs_key blockReaders_nodup hx

theorem cleaned_strip {v k : Str} (h : k ∈ cleaned v) : k = strip v := by
  unfold cleaned at h
  split at h
  · cases h
  · exact (Option.some.inj h).symm

/-- the value of a scope is the user, the session or the address, without the space at its ends -/
theorem Keyed.value (h : Keyed b s user session address) {p : Str × Str}
    (hp : p ∈ readPairs (blockReaders b) s) :
    p.2 ∈ [strip user, strip session, strip address] := by
  obtain ⟨x, hx, -, hk⟩ := mem_readPairs.mp hp
  rw [blockReaders_eq] at hx
  simp only [List.mem_cons, List.not_mem_nil, or_false] at hx ⊢
  rcases hx with rfl | rfl | rfl
  · exact .inl (cleaned_strip (h.user ▸ hk))
  · exact .inr (.inl (cleaned_strip (h.session ▸ hk)))
  · exact .inr (.inr (cleaned_strip (h.address ▸ hk)))

theorem Identified.keyed {event : AuditEvent} (h : Identified event session address user) :
    Keyed b (RuleEvent.fromEvent b event).toDict user session address where
  user := h.userKey b
  session := event_key b (by decide) (h.raw _ (by decide)) h.session
  address := event_key b (by decide) (h.raw _ (by decide)) h.address

theorem ingress_keyed {path method : Str} :
    Keyed b (ingressItems path method address session user) user session address :=
  ⟨ingress_user b, ingress_session b, ingress_address b⟩

end

/-! ## before and after the view -/

section
variable (b : Builtins) {lib : IpLibrary} (mw : AuditMiddleware lib)

/-- the address a request comes from -/
def addressOf (request : Request) : Str :=
  (resolveClientIp mw.django.trustedProxyConfig request.META).ip

/-- the session a request is recorded under -/
def sessionOf (request : Request) : Str := emittedSession mw.django.emitSessionId request

/-- a request of the same client -/
structure SameClient (request next : Request) : Prop where
  address : addressOf mw next = addressOf mw request
  session : next.session = request.session
  user : next.user = request.user

/-- the scopes of a request are the same before and after the view, each names the client itself,
and a block under one of them is looked up by the next request of the client -/
structure DimensionsAgree (request : Request) (before after : List BlockScope) : Prop where
  same : ∀ p, p ∈ before.map BlockScope.pair ↔ p ∈ after.map BlockScope.pair
  own : ∀ user, request.user = .ok user → ∀ p ∈ after.map BlockScope.pair,
    p.2 ∈ [strip (askedId user), strip (sessionOf mw request), strip (addressOf mw request)]
  next : ∀ (next : Request) (summary : Summary) (scopes : List BlockScope),
    SameClient mw request next →
    ingressSummary mw.django.trustedProxyConfig mw.django.emitSessionId next = .ok summary →
    (ScopeRegistry.default b).blockScopes summary none = .ok scopes →
    ∀ s ∈ after, s.pair ∈ scopes.map BlockScope.pair

/-- the scrubber spares the address and the session, unless they are the marker themselves; an
authenticated user that is true has a primary key or no id, and one that is not has no key -/
structure KeepsScopes (request : Request) : Prop where
  address : mw.core.redaction.redacts (str "srcip") (addressOf mw request) = true →
    strip (addressOf mw request) = REDACTED
  session : mw.core.redaction.redacts (str "session_id") (sessionOf mw request) = true →
    strip (sessionOf mw request) = REDACTED
  user : ∀ user, request.user = .ok (some user) → user.isAuthenticated = true →
    (user.truthy = true → user.pk = none → strip (user.id.getD []) = []) ∧
      (user.truthy = false → strip (user.pk.getD []) = [])

theorem cleaned_none_iff {s : Str} : cleaned s = none ↔ strip s = [] := by
  unfold cleaned
  split
  · rename_i h
    exact iff_of_true rfl h
  · rename_i h
    exact iff_of_false (fun he => by cases he) h

theorem cleanedId_iff {user : Option User} : cleaned (recordedId user) = cleaned (askedId user) ↔
    ∀ u, user = some u → u.isAuthenticated = true →
      (u.truthy = true → u.pk = none → strip (u.id.getD []) = []) ∧
        (u.truthy = false → strip (u.pk.getD []) = []) := by
  unfold recordedId askedId
  cases user with
  | none => exact iff_of_true rfl fun u hu => by cases hu
  | some u =>
    dsimp only
    by_cases ha : u.isAuthenticated = true
    · rw [if_pos ha, if_pos ha]
      have hone : (∀ v, some u = some v → v.isAuthenticated = true →
          (v.truthy = true → v.pk = none → strip (v.id.getD []) = []) ∧
            (v.truthy = false → strip (v.pk.getD []) = [])) ↔
          (u.truthy = true → u.pk = none → strip (u.id.getD []) = []) ∧
            (u.truthy = false → strip (u.pk.getD []) = []) :=
        ⟨fun h => h u rfl ha, fun h v hv _ => Option.some.inj hv ▸ h⟩
      rw [hone]
      unfold recordedUserId
      have hempty : cleaned ([] : Str) = none := rfl
      cases ht : u.truthy with
      | true =>
        rw [if_pos rfl]
        cases hpk : u.pk with
        | none =>
          rw [Option.none_or, Option.getD_none, hempty, cleaned_none_iff]
          simp
        | some pk => simp
      | false =>
        rw [if_neg Bool.false_ne_true, hempty, eq_comm, cleaned_none_iff]
        simp
    · rw [if_neg ha, if_neg ha]
      exact iff_of_true rfl fun v hv h => absurd (Option.some.inj hv ▸ h) ha

variable {py : Objects} {repr : Str → Str} {frames : Nat} {x : Exchange} {summary : Summary}
  {event : AuditEvent}

theorem ingress_scopes {request : Request}
    (h : ingressSummary mw.django.trustedProxyConfig mw.django.emitSessionId request = .ok summary)
    {emitted : Str × Option Str} {fresh : Str} (hstore : StoresId request)
    (he : getAuditSessionId fresh request mw.django.emitSessionId = .ok emitted) :
    ∃ user, request.user = .ok user ∧ emitted.1 = sessionOf mw request ∧
      Keyed b summary (askedId user) (sessionOf mw request) (addressOf mw request) := by
  obtain ⟨session, user, hs, hu, rfl⟩ := ingressSummary_items h
  obtain ⟨rfl, hsession⟩ := session_emitted hstore hs he
  exact ⟨user, hu, hsession, ingress_keyed⟩

theorem SameClient.sessionOf {request next : Request} (h : SameClient mw request next) :
    sessionOf mw next = sessionOf mw request := by
  unfold SecAudit.sessionOf emittedSession
  rw [h.session]

/-- before the view a later request of the client has the same scopes -/
theorem SameClient.readPairs {request next : Request} {summary' : Summary}
    (h : SameClient mw request next) (hstore : StoresId request)
    {fresh : Str} {emitted : Str × Option Str}
    (he : getAuditSessionId fresh request mw.django.emitSessionId = .ok emitted)
    (hin : ingressSummary mw.django.trustedProxyConfig mw.django.emitSessionId request
      = .ok summary)
    (hnext : ingressSummary mw.django.trustedProxyConfig mw.django.emitSessionId next
      = .ok summary') :
    SecAudit.readPairs (blockReaders b) summary' = SecAudit.readPairs (blockReaders b) summary := by
  have hstore' : StoresId next := by
    unfold StoresId
    rw [h.session]
    exact hstore
  have he' : getAuditSessionId fresh next mw.django.emitSessionId = .ok emitted := by
    unfold getAuditSessionId at he ⊢
    rw [h.session]
    exact he
  obtain ⟨user, hu, -, hkeyed⟩ := ingress_scopes b mw hin hstore he
  obtain ⟨user', hu', -, hkeyed'⟩ := ingress_scopes b mw hnext hstore' he'
  obtain rfl : user' = user := Except.ok.inj (hu'.symm.trans (h.user.trans hu))
  refine readPairs_congr ?_
  rw [blockReaders_eq]
  simp only [List.forall_mem_cons, List.not_mem_nil, false_implies, implies_true, and_true]
  rw [hkeyed.user, hkeyed'.user, hkeyed.session, hkeyed'.session, hkeyed.address, hkeyed'.address,
    h.sessionOf, h.address]
  exact ⟨rfl, rfl, rfl⟩

/-- the scopes before the view, and those after it -/
theorem scopes_found
    (hin : ingressSummary mw.django.trustedProxyConfig mw.django.emitSessionId x.request
      = .ok summary)
    (hout : recordedEvent py repr frames mw x = some event)
    (huser : x.user = x.request.user) (hstore : StoresId x.request) :
    ∃ user emitted before after, x.request.user = .ok user ∧
    getAuditSessionId x.freshSession x.request mw.django.emitSessionId = .ok emitted ∧
    (ScopeRegistry.default b).blockScopes summary none = .ok before ∧
    (ScopeRegistry.default b).blockScopes (RuleEvent.fromEvent b event).toDict none = .ok after ∧
    before.map BlockScope.pair = readPairs (blockReaders b) summary ∧
    after.map BlockScope.pair
      = readPairs (blockReaders b) (RuleEvent.fromEvent b event).toDict ∧
    Keyed b summary (askedId user) (sessionOf mw x.request) (addressOf mw x.request) ∧
    Keyed b (RuleEvent.fromEvent b event).toDict (recordedId user)
      (shown mw.core.redaction (str "session_id") (sessionOf mw x.request))
      (shown mw.core.redaction (str "srcip") (addressOf mw x.request)) := by
  obtain ⟨emitted, -, -, -, -, he, -⟩ := recordedEvent_steps hout
  obtain ⟨user, hu, hsession, hkeyed⟩ := ingress_scopes b mw hin hstore he
  have hid : Identified event (shown mw.core.redaction (str "session_id") emitted.1)
      (shown mw.core.redaction (str "srcip") (addressOf mw x.request)) (recordedId user) :=
    recorded_identity hout he (huser.trans hu)
  rw [hsession] at hid
  obtain ⟨before, hb, hbefore⟩ := @default_blockScopes summary b none
  obtain ⟨after, ha, hafter⟩ := @default_blockScopes (RuleEvent.fromEvent b event).toDict b none
  exact ⟨user, emitted, before, after, hu, he, hb, ha, hbefore, hafter, hkeyed, hid.keyed⟩

/-- **before and after the view a request has the same scopes exactly when the scrubber spares its
address and its session, and its user is recorded under the id that is asked for** -/
theorem dimensions_agree
    (hin : ingressSummary mw.django.trustedProxyConfig mw.django.emitSessionId x.request
      = .ok summary)
    (hout : recordedEvent py repr frames mw x = some event)
    (huser : x.user = x.request.user) (hstore : StoresId x.request) : ∃ before after,
    (ScopeRegistry.default b).blockScopes summary none = .ok before ∧
    (ScopeRegistry.default b).blockScopes (RuleEvent.fromEvent b event).toDict none = .ok after ∧
    (DimensionsAgree b mw x.request before after ↔ KeepsScopes mw x.request) := by
  obtain ⟨user, emitted, before, after, hu, he, hb, ha, hbefore, hafter, hkeyed, hkeyed'⟩ :=
    scopes_found b mw hin hout huser hstore
  refine ⟨before, after, hb, ha, ?_⟩
  have hsame : (∀ p, p ∈ before.map BlockScope.pair ↔ p ∈ after.map BlockScope.pair) ↔
      KeepsScopes mw x.request := by
    rw [hbefore, hafter, hkeyed.same_iff hkeyed', cleanedId_iff, cleaned_shown_iff,
      cleaned_shown_iff]
    constructor
    · rintro ⟨h, hs, ha⟩
      refine ⟨ha, hs, fun u hu' => h u ?_⟩
      exact Except.ok.inj (hu.symm.trans hu')
    · intro h
      refine ⟨fun u hu' => h.user u ?_, h.session, h.address⟩
      rw [hu, hu']
  refine ⟨fun h => hsame.mp h.same, fun h => ?_⟩
  have hpairs := hsame.mpr h
  refine ⟨hpairs, fun user' hu' p hp => ?_, fun next summary' scopes hc hn hs s hm => ?_⟩
  · obtain rfl : user' = user := Except.ok.inj (hu'.symm.trans hu)
    have hp' := (hpairs p).mpr hp
    rw [hbefore] at hp'
    exact hkeyed.value hp'
  · obtain ⟨scopes', hs', hscopes⟩ := @default_blockScopes summary' b none
    obtain rfl : scopes = scopes' := Except.ok.inj (hs.symm.trans hs')
    rw [show scopes.map BlockScope.pair = readPairs (blockReaders b) summary' from hscopes,
      hc.readPairs b mw hstore he hin hn, ← hbefore]
    exact (hpairs s.pair).mpr (List.mem_map_of_mem hm)

/-- the event of a request has the marker as its session, and the request itself has not -/
def SessionMarked (x : Exchange) : Prop := ∃ summary event before after,
  ingressSummary mw.django.trustedProxyConfig mw.django.emitSessionId x.request = .ok summary ∧
  recordedEvent py repr frames mw x = some event ∧
  (ScopeRegistry.default b).blockScopes summary none = .ok before ∧
  (ScopeRegistry.default b).blockScopes (RuleEvent.fromEvent b event).toDict none = .ok after ∧
  (str "session", REDACTED) ∉ before.map BlockScope.pair ∧
  (str "session", REDACTED) ∈ after.map BlockScope.pair ∧
  ¬ DimensionsAgree b mw x.request before after

theorem sessionMarked_of
    (hin : ingressSummary mw.django.trustedProxyConfig mw.django.emitSessionId x.request
      = .ok summary)
    (hout : (recordedEvent py repr frames mw x).isSome = true)
    (huser : x.user = x.request.user) (hstore : StoresId x.request)
    (hred : mw.core.redaction.redacts (str "session_id") (sessionOf mw x.request) = true)
    (hne : strip (sessionOf mw x.request) ≠ REDACTED) :
    @SessionMarked b lib mw py repr frames x := by
  obtain ⟨event, hout⟩ := Option.isSome_iff_exists.mp hout
  obtain ⟨user, emitted, before, after, -, -, hb, ha, hbefore, hafter, hkeyed, hkeyed'⟩ :=
    scopes_found b mw hin hout huser hstore
  have hnot : (str "session", REDACTED) ∉ before.map BlockScope.pair := by
    rw [hbefore, hkeyed.mem_session]
    exact fun hk => hne (cleaned_strip hk).symm
  have hmem : (str "session", REDACTED) ∈ after.map BlockScope.pair := by
    rw [hafter, hkeyed'.mem_session]
    rw [show shown mw.core.redaction (str "session_id") (sessionOf mw x.request) = REDACTED from
      if_pos hred, cleaned_redacted]
    rfl
  exact ⟨summary, event, before, after, hin, hout, hb, ha, hnot, hmem,
    fun h => hnot ((h.same _).mpr hmem)⟩

end

/-- no object is asked here -/
def Objects.sample : Objects where
  truthy _ := true
  str _ := .error .typeError
  int _ := .error .typeError

/-- a request that is answered with `401`, and whose user stays -/
def Exchange.refused (request : Request) : Exchange where
  request := request
  absoluteUri _ := .ok (str "http://testserver/login/?next=/")
  info := .ok ⟨[], fun e he => absurd he List.not_mem_nil⟩
  status := 401
  user := request.user
  durationNs := 1000
  timestampNs := 0
  freshId := str "f00d"
  freshSession := str "beef"

/-- a user whose session stores an audit-session id -/
def Request.signedIn : Request where
  META := [(REMOTE_ADDR, str "203.0.113.7")]
  path := str "/login/"
  method := str "POST"
  user := .ok (some { isAuthenticated := true, pk := some (str "7"), id := some (str "7") })
  session := .ok (some (some (str "5e55")))

/-- nobody, without a session -/
def Request.anonymousAt (address : Str) : Request where
  META := [(REMOTE_ADDR, address)]
  path := str "/login/"
  method := str "POST"
  user := .ok none
  session := .ok none

/-- the default settings -/
def AuditMiddleware.default : AuditMiddleware .sample where
  core := .default
  schemaVersion := str "1"
  django := { trustedProxyConfig := .off .sample }

/-- the audit-session id is emitted, and its key is allowed -/
def AuditMiddleware.allowing : AuditMiddleware .sample where
  core := { CoreAuditConfig.default with
    redaction := ⟨defaultSensitiveKeys, [], [str "session_id"]⟩ }
  schemaVersion := str "1"
  django := { trustedProxyConfig := .off .sample, emitSessionId := true }

theorem allowing_keeps : KeepsScopes .allowing Request.signedIn where
  address h := absurd h (by decide +kernel)
  session h := absurd h (by decide +kernel)
  user := by
    intro user hu _
    obtain rfl := Option.some.inj (Except.ok.inj hu)
    exact ⟨fun _ h => (by cases h), fun h => (by cases h)⟩

/-- an allowed session is the same before and after the view -/
theorem dimensions_agree_allowing : ∃ summary event before after,
    ingressSummary (.off .sample) true Request.signedIn = .ok summary ∧
    recordedEvent Objects.sample id 10 .allowing (.refused .signedIn) = some event ∧
    (ScopeRegistry.default .sample).blockScopes summary none = .ok before ∧
    (ScopeRegistry.default .sample).blockScopes (RuleEvent.fromEvent .sample event).toDict none
      = .ok after ∧
    DimensionsAgree .sample .allowing .signedIn before after := by
  obtain ⟨event, hout⟩ := Option.isSome_iff_exists.mp
    (by decide +kernel : (recordedEvent Objects.sample id 10 .allowing
      (.refused .signedIn)).isSome = true)
  have hstore : StoresId Request.signedIn := fun stored h =>
    ⟨str "5e55", (Option.some.inj (Except.ok.inj h)).symm, by decide⟩
  obtain ⟨before, after, hb, ha, hiff⟩ := @dimensions_agree .sample _ .allowing _ _ _
    (.refused .signedIn) _ event rfl hout rfl hstore
  exact ⟨_, event, before, after, rfl, hout, hb, ha, hiff.mpr allowing_keeps⟩

/-- by default every event has the marker as its session, wherever the client is -/
theorem session_marked_by_default :
    @SessionMarked .sample _ .default .sample id 10 (.refused (.anonymousAt (str "10.0.0.1"))) ∧
    @SessionMarked .sample _ .default .sample id 10
      (.refused (.anonymousAt (str "203.0.113.7"))) :=
  ⟨sessionMarked_of .sample .default rfl (by decide +kernel) rfl (fun _ h => (by cases h))
      (by decide +kernel) (by decide +kernel),
    sessionMarked_of .sample .default rfl (by decide +kernel) rfl (fun _ h => (by cases h))
      (by decide +kernel) (by decide +kernel)⟩

end SecAudit
