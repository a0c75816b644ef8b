import SecAudit.Enforce.Changes
import SecAudit.Enforce.Dimensions
import SecAudit.Enforce.Middleware
import SecAudit.Enforce.Settings
import SecAudit.Rules.Inspection

/-!
# Rules that the integration does not feed

* `Asked`           the events that the Django integration asks the rules about;
* `Asked.cases`     what such an event does not carry;
* `unfed_rules`     two of the rules with a default action find nothing in any of them.
-/

set_option linter.unusedVariables false

namespace SecAudit
open Py Prog

/-- an event that the integration asks the rules about: that of a response, that of a signal, or
that made of a request before the view; those of the enforcement itself are internal -/
inductive Asked (Response : Type) (py : Objects) (repr : Str → Str) (frames : Nat)
    {lib : IpLibrary} (mw : AuditMiddleware lib) (b : Builtins) : RuleEvent → Prop where
  | response (x : Exchange) (sessionId : Str) (base : List (Str × Value)) (event : AuditEvent)
      (h : recordResponse py repr frames mw x sessionId base = .ok (some event)) :
      Asked Response py repr frames mw b (.fromEvent b event)
  | signal (now : Nat) (signal : Signal) (t : List (AuditCall Response)) (event : AuditEvent)
      (h : Does (AuditReplies Response) (signalEvent py repr frames mw now signal) t (.ok event)) :
      Asked Response py repr frames mw b (.fromEvent b event)
  | request (emitSessionId : Bool) (request : Request) (summary : Summary)
      (h : ingressSummary mw.django.trustedProxyConfig emitSessionId request = .ok summary) :
      Asked Response py repr frames mw b (synthesizePreRequestEvent b summary)

section
variable {py : Objects} {repr : Str → Str} {frames : Nat} {lib : IpLibrary}
  {mw : AuditMiddleware lib} {b : Builtins} {Response : Type} {e : RuleEvent} {k : Str}

/-! ## what is recorded -/

theorem responseEventType_ne (status : Int) :
    responseEventType status ≠ str "audit.http.request.pre" := by
  unfold responseEventType
  split
  · decide
  split
  · decide
  split <;> decide

theorem modelEventType_ne (action : Int) :
    modelEventType action ≠ str "audit.http.request.pre" := by
  unfold modelEventType
  split
  · decide
  split
  · decide
  split
  · decide
  split <;> decide

theorem signalText_ne (signal : Signal) :
    (signalText signal).eventType ≠ str "audit.http.request.pre" := by
  cases signal with
  | login request user =>
    show str "auth.login.success" ≠ _
    decide
  | loginFailed request credentials =>
    show str "auth.login.failed" ≠ _
    decide
  | model entry => exact modelEventType_ne _
  | logout request user =>
    unfold signalText
    dsimp only
    split <;> decide

/-- an event holds what its entries add, and its type and version -/
theorem getItem_unlogged {context : Option AuditContext} {now : Nat}
    {body eventType schemaVersion : Str} {data : List (Str × Value)} {includeUsernames : Bool}
    {event : AuditEvent}
    (h : buildAuditEvent py context repr frames now body eventType data schemaVersion
      includeUsernames [] = .ok event)
    (hk : k ∉ str "event_type" :: str "schema_version" :: LOG_KEYS)
    (ha : k ∉ OTEL_TO_RAW_ALIASES.map Prod.snd) :
    getItem k (RuleEvent.fromEvent b event).fields = none := by
  rw [List.mem_cons, List.mem_cons, not_or, not_or] at hk
  obtain ⟨ht, hs, hk⟩ := hk
  obtain ⟨-, n, status, duration, impact, name, changed, -, hread⟩ := attribute_frozen h
  rw [getItem_fromEvent ht ha]
  refine (hread k ht hs _ rfl).1 ?_
  rw [getItem_none_of (by rw [keys_logEntries]; exact hk)]
  rfl

/-! ## before the view -/

/-- the event made of a request holds what is read off the request -/
theorem getItem_unread {config : TrustedProxyConfig lib} {emitSessionId : Bool} {request : Request}
    {summary : Summary} (h : ingressSummary config emitSessionId request = .ok summary)
    (hk : k ∉ [str "event_type", str "path", str "method", str "srcip", str "session_id",
      str "user_id"]) (ha : k ∉ OTEL_TO_RAW_ALIASES.map Prod.snd) :
    getItem k (synthesizePreRequestEvent b summary).fields = none := by
  simp only [List.mem_cons, List.not_mem_nil, or_false, not_or] at hk
  obtain ⟨ht, hpath, hmethod, hsrcip, hsession, huser⟩ := hk
  obtain ⟨session, user, -, -, rfl⟩ := ingressSummary_items h
  refine (RuleEvent.getItem_make ht).trans ?_
  rw [getItem_normalize_other ha, getItem_setItem_other _ _ ht, getItem_ingressItems hpath hmethod,
    getItem_textItem_other _ (Ne.symm huser), getItem_textItem_other _ (Ne.symm hsession),
    getItem_textItem_other _ (Ne.symm hsrcip)]
  rfl

/-! ## what is not there -/

/-- the event of a response or a signal is built of data -/
theorem Asked.cases (h : Asked Response py repr frames mw b e) :
    (e.eventType ≠ str "audit.http.request.pre" ∧ ∀ k,
      k ∉ str "event_type" :: str "schema_version" :: LOG_KEYS →
      k ∉ OTEL_TO_RAW_ALIASES.map Prod.snd → getItem k e.fields = none) ∨
    ∀ k, k ∉ [str "event_type", str "path", str "method", str "srcip", str "session_id",
      str "user_id"] → k ∉ OTEL_TO_RAW_ALIASES.map Prod.snd → getItem k e.fields = none := by
  cases h with
  | response x sessionId base event h =>
    unfold recordResponse at h
    split at h
    · cases h
    obtain ⟨data, -, h⟩ := ok_of_bind h
    split at h
    · cases h
    obtain ⟨built, hbuilt, h⟩ := ok_of_bind h
    obtain rfl := Option.some.inj (Except.ok.inj h)
    refine .inl ⟨?_, fun k => getItem_unlogged hbuilt⟩
    rw [fromEvent_type, (attribute_frozen hbuilt).1]
    exact responseEventType_ne _
  | signal now signal t event h =>
    rcases does_bind.mp h with ⟨t₁, x, t₂, -, h₂, rfl⟩ | ⟨e, -, hr⟩
    swap
    · cases hr
    rcases does_bind.mp h₂ with ⟨t₃, data, t₄, -, h₄, rfl⟩ | ⟨e, -, hr⟩
    swap
    · cases hr
    have hbuilt := (does_done.mp h₄).2.symm
    refine .inl ⟨?_, fun k => getItem_unlogged hbuilt⟩
    rw [fromEvent_type, (attribute_frozen hbuilt).1]
    exact signalText_ne _
  | request emitSessionId request summary h => exact .inr fun k => getItem_unread h

theorem Asked.no_headers (h : Asked Response py repr frames mw b e) :
    (e.proxy b).headers = [] := by
  unfold RuleEvent.proxy
  rcases h.cases with ⟨-, hnone⟩ | hnone
  · rw [hnone _ (by decide) (by decide)]
    rfl
  · rw [hnone _ (by decide) (by decide)]
    rfl

/-- before the view there is no body -/
theorem Asked.no_body (h : Asked Response py repr frames mw b e)
    (hpre : e.eventType = str "audit.http.request.pre") : (e.request b).body = none := by
  rcases h.cases with ⟨hne, -⟩ | hnone
  · exact absurd hpre hne
  · unfold RuleEvent.request
    dsimp only
    rw [hnone (str "request.body") (by decide) (by decide),
      hnone (str "request") (by decide) (by decide), hnone (str "body") (by decide) (by decide)]
    rfl

end

/-- **Two rules are not fed.** `suspicious_proxy_header` and `request_body_threshold` have an action
in the default configuration, but whatever the requests, the responses and the signals are, the
first finds nothing in an event that the integration asks it about, and so does the second in those
of its type. -/
theorem unfed_rules (Response : Type) (py : Objects) (repr : Str → Str) (frames : Nat)
    {lib : IpLibrary} [DecidableEq lib.Address] (mw : AuditMiddleware lib)
    (decimals : DecimalLibrary) (b : Builtins) (headerRule : SuspiciousProxyHeaderRule)
    (bodyRule : RequestBodyThresholdRule decimals) (e : RuleEvent)
    (he : Asked Response py repr frames mw b e) (ctx : RuleContext) (enforcementOnly : Bool) :
    (headerRule.rule.name ∈ DEFAULT_RULE_ACTIONS.map Prod.fst ∧
      headerRule.evaluate lib b e ctx = .none) ∧
    RequestBodyThresholdRule.rule.name ∈ DEFAULT_RULE_ACTIONS.map Prod.fst ∧
      (RuleEngine.ruleApplies RequestBodyThresholdRule.rule e enforcementOnly = true →
        bodyRule.evaluate b e ctx = .ok .none) := by
  refine ⟨⟨?_, ?_⟩, by decide, fun happlies => ?_⟩
  · show str "suspicious_proxy_header" ∈ _
    decide
  · by_contra hfinds
    obtain ⟨-, p, hp, -⟩ := SuspiciousProxyHeaderRule.proxy_finds_iff.mp hfinds
    rw [he.no_headers] at hp
    exact absurd hp List.not_mem_nil
  · refine RequestBodyThresholdRule.body_needed b (he.no_body ?_)
    unfold RuleEngine.ruleApplies at happlies
    rw [Bool.and_eq_true] at happlies
    exact List.mem_singleton.mp (of_decide_eq_true happlies.2)

/-- numbers without a point -/
def DecimalLibrary.sample : DecimalLibrary where
  Decimal := Nat
  parse s := if s.all isDigit then some (ofDecimal s) else none
  le m n := .ok (decide (m ≤ n))
  text := decimal

def RequestBodyThresholdRule.sample : RequestBodyThresholdRule .sample where
  threshold := (10000 : Nat)

/-- a request that claims another address -/
def Request.forged : Request :=
  { Request.sample with
    META := [(str "REMOTE_ADDR", str "203.0.113.7"), (str "HTTP_X_FORWARDED_FOR", str "10.0.0.1")] }

/-- nothing is found in a request that claims another address -/
theorem unfed_rules_forged : ∃ summary,
    ingressSummary (.off .sample) false Request.forged = .ok summary ∧
    (SuspiciousProxyHeaderRule.evaluate .sample .sample ⟨true⟩
        (synthesizePreRequestEvent .sample summary) ⟨0, []⟩ = .none ∧
      RequestBodyThresholdRule.sample.evaluate .sample (synthesizePreRequestEvent .sample summary)
        ⟨0, []⟩ = .ok .none) := by
  have hsummary : ingressSummary (.off .sample) false Request.forged
      = .ok (ingressItems (str "/x/") (str "GET") (str "203.0.113.7") [] []) := rfl
  obtain ⟨⟨-, hheaders⟩, -, hbody⟩ := unfed_rules Unit .silent id 10 .plain .sample .sample
    ⟨true⟩ .sample _ (.request false .forged _ hsummary) ⟨0, []⟩ true
  exact ⟨_, hsummary, hheaders, hbody rfl⟩

end SecAudit
