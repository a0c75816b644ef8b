import SecAudit.Django.Request
import SecAudit.Enforce.Plan
import SecAudit.Rules.Readers

/-!
# The enforcement before the view

* `HttpResponses`   what the constructor of a response does;
* `ingress`         the look for a block, then the safe rules: a response that denies, or none;
* `enforcementMiddleware`  the middleware;
* `block_denies`    a request of a blocked scope is denied exactly when the response of the block can
                    be built.
-/

set_option linter.unusedVariables false

namespace SecAudit
open Py Prog

structure HttpResponses (Response : Type) where
  /-- `HttpResponse(message, status=status, content_type='text/plain')` -/
  build : Str → Int → Except Exc Response
  /-- the text has a form in the charset of the response -/
  encodes : Str → Bool
  build_ok : ∀ message status, (∃ r, build message status = .ok r) ↔
    encodes message = true ∧ 100 ≤ status ∧ status ≤ 599

/-- `PRE_REQUEST_EVENT` -/
def PRE_REQUEST_EVENT : Str := str "audit.http.request.pre"

/-- `synthesize_pre_request_event` -/
def synthesizePreRequestEvent (b : Builtins) (payload : Summary) : RuleEvent :=
  .fromMapping b (setItem (str "event_type") (.string PRE_REQUEST_EVENT) payload)

/-- `_fail_closed` -/
def failClosed (config : DjangoEnforcementConfig) (path : Str) : Bool :=
  config.failClosedPaths.any fun search => search path

section
variable {Response : Type} (http : HttpResponses Response) (py : Interp)
  (rt : DjangoEnforcementRuntime)

/-- `_deny` -/
def deny (status : Int) (message : Str) : Routine Response (Option Response) := do
  let response ← ofExcept (http.build message status)
  return some response

/-- `_safe_emit` -/
def safeEmit (failMode : Str) (error : Exc) : Routine Response Unit :=
  Prog.catchWith (do
    let now ← perform .timeNs
    let built ← ofExcept (buildEvaluationFailedEvent py.toBuiltins now rt.schemaVersion failMode
      error)
    emitBuilt built) fun _ => pure ()

/-- the response to an action that blocks -/
def denial (action : RuleAction) : Int × Str :=
  ((orInt action.statusCode none).getD rt.config.statusCode,
    (action.message.bind orNone).getD rt.config.message)

/-- the loop of `_eval_safe`, with the response so far -/
def applySafe (summary : Summary) :
    List RuleMatch → Option (Int × Str) → Routine Response (Option (Int × Str))
  | [], denied => pure denied
  | m :: l, denied => do
    let action ← ofExcept (rt.enforcer.resolveAction py m)
    let results ← rt.enforcer.apply py m action summary
    emitEach results
    applySafe summary l (if action.action ∈ BLOCKING_ACTIONS then some (denial rt action) else denied)

/-- the end of `_eval_safe` -/
def denyLast : Option (Int × Str) → Routine Response (Option Response)
  | none => pure none
  | some (status, message) => deny http status message

/-- `_eval_safe` -/
def evalSafe (summary : Summary) : Routine Response (Option Response) :=
  ((rt.engine py).evaluate py.frames (synthesizePreRequestEvent py.toBuiltins summary) true).attempt
    fun r => match r with
    | .error _ => pure none
    | .ok found => do
      let denied ← applySafe py rt summary found none
      denyLast http denied

/-- `_ingress`, when no block was found -/
def afterLookup (summary : Summary) : Routine Response (Option Response) :=
  if rt.config.evalSafeOnIngress && !rt.config.applyViaSink then evalSafe http py rt summary
  else pure none

/-- `_ingress`, with what the look for a block gave -/
def onLookup (path : Str) (summary : Summary) :
    Except Exc (Option BlockEntry) → Routine Response (Option Response)
  | .error e =>
    if e.isBlockStoreError then
      if failClosed rt.config path then do
        safeEmit py rt (str "closed") e
        deny http rt.config.statusCode rt.config.message
      else do
        safeEmit py rt (str "open") e
        afterLookup http py rt summary
    else Prog.throw e
  | .ok none => afterLookup http py rt summary
  | .ok (some entry) => do
    let now ← perform .timeNs
    let built ← ofExcept (buildBlockedEvent py.toBuiltins now rt.schemaVersion entry)
    emitBuilt built
    deny http entry.statusCode entry.message

variable {lib : IpLibrary} (django : DjangoAuditConfig lib) (request : Request)

/-- `_ingress` -/
def ingress : Routine Response (Option Response) := do
  let summary ← ofExcept (ingressSummary django.trustedProxyConfig django.emitSessionId request)
  let scopes ← ofExcept (rt.scopeRegistry.blockScopes summary none)
  (perform (.firstActive scopes)).attempt (onLookup http py rt request.path summary)

/-- `EnforcementMiddleware.__call__`, once the runtime is there and enabled -/
def enforceIngress : Routine Response Response :=
  (ingress http py rt django request).attempt fun r => match r with
    | .ok (some response) => pure response
    | .ok none => perform .getResponse
    | .error e => do
      safeEmit py rt (str "open") e
      perform .getResponse

/-- `EnforcementMiddleware.__call__`; `runtime` is what `get_enforcement_runtime` returned or
raised -/
def enforcementMiddleware (runtime : Except Exc DjangoEnforcementRuntime) :
    Routine Response Response :=
  match runtime with
  | .error _ => perform .getResponse
  | .ok rt =>
    if rt.config.enabled then enforceIngress http py rt django request else perform .getResponse

end

/-! ## what a run shows -/

section
variable {Response : Type}

/-- a call of the view -/
def callsView : Happening Response → Bool
  | ⟨.getResponse, _⟩ => true
  | _ => false

/-- the view is not called, and the response is the one to deny with -/
structure Denies (http : HttpResponses Response) (status : Int) (message : Str)
    (t : List (Happening Response)) (r : Except Exc Response) : Prop where
  uncalled : ∀ x ∈ t, callsView x = false
  denied : http.build message status = r
  returned : ∃ response, r = .ok response

variable {σ : Type} {http : HttpResponses Response} {site : Site Response σ} {py : Interp}
  {rt : DjangoEnforcementRuntime} {s : σ}

/-- an event of the enforcement, told of without calling the view -/
theorem runs_safeEmit (failMode : Str) (error : Exc) (s : σ) :
    ∃ t, Runs site.handler (safeEmit py rt failMode error) s t (.ok ()) s ∧
      ∀ x ∈ t, callsView x = false := by
  obtain ⟨built, hb, -⟩ := buildEvaluationFailedEvent_ok py.toBuiltins (site.timeNs s) rt.schema_ne
    failMode error
  have hnow := Runs.perform (h := site.handler) (Eff.timeNs : Eff Response Nat) s
  refine ⟨_, (hnow.bind (Runs.ofExcept_ok hb (runs_emitBuilt built s))).uncaught, fun x hx => ?_⟩
  rcases List.mem_cons.mp hx with rfl | hx
  · exact rfl
  · rw [List.mem_singleton.mp hx]
    exact rfl

variable (http) in
/-- the response to a block, and the event that tells of it -/
theorem runs_blocked (path : Str) (summary : Summary) (entry : BlockEntry) (s : σ) :
    ∃ t, Runs site.handler (onLookup http py rt path summary (.ok (some entry))) s t
        ((http.build entry.message entry.statusCode).map some) s ∧ ∀ x ∈ t, callsView x = false := by
  obtain ⟨built, hb, -⟩ := buildBlockedEvent_ok py.toBuiltins (site.timeNs s) rt.schema_ne entry
  have hnow := Runs.perform (h := site.handler) (Eff.timeNs : Eff Response Nat) s
  have hdeny : Runs site.handler (deny http entry.statusCode entry.message) s []
      ((http.build entry.message entry.statusCode).map some) s := by
    unfold deny
    cases http.build entry.message entry.statusCode with
    | error x => exact Runs.ofExcept_error rfl
    | ok response => exact Runs.ofExcept_ok rfl (.done _ s)
  refine ⟨_, hnow.bind (Runs.ofExcept_ok hb ((runs_emitBuilt built s).bind hdeny)), fun x hx => ?_⟩
  rcases List.mem_cons.mp hx with rfl | hx
  · exact rfl
  · rw [List.append_nil] at hx
    rw [List.mem_singleton.mp hx]
    exact rfl

variable {lib : IpLibrary} {django : DjangoAuditConfig lib} {request : Request}

theorem middleware_enabled (hen : rt.config.enabled = true) :
    enforcementMiddleware http py django request (.ok rt)
      = enforceIngress http py rt django request :=
  if_pos hen

theorem enforceIngress_denied {t : List (Happening Response)} {response : Response} {s' : σ}
    (h : Runs site.handler (ingress http py rt django request) s t (.ok (some response)) s') :
    Runs site.handler (enforceIngress http py rt django request) s t (.ok response) s' := by
  rw [← List.append_nil t]
  exact h.attempt (.done (.ok response) s')

/-- without a response the view is called -/
theorem enforceIngress_called {t : List (Happening Response)} {r : Except Exc (Option Response)}
    {s' : σ} (h : Runs site.handler (ingress http py rt django request) s t r s')
    (hr : ∀ response, r ≠ .ok (some response)) :
    ∃ x ∈ trace site.handler (enforceIngress http py rt django request) s, callsView x = true := by
  have hview := Runs.perform (h := site.handler) (Eff.getResponse : Eff Response Response) s'
  cases r with
  | error e =>
    obtain ⟨t₁, hrun, -⟩ := @runs_safeEmit Response σ site py rt (str "open") e s'
    have hwhole : Runs site.handler (enforceIngress http py rt django request) s _ _ _ :=
      h.attempt (hrun.bind hview)
    rw [hwhole.trace_eq]
    exact ⟨⟨.getResponse, _⟩, List.mem_append_right _ (List.mem_append_right _ List.mem_cons_self),
      rfl⟩
  | ok o =>
    cases o with
    | some response => exact absurd rfl (hr response)
    | none =>
      have hwhole : Runs site.handler (enforceIngress http py rt django request) s _ _ _ :=
        h.attempt hview
      rw [hwhole.trace_eq]
      exact ⟨⟨.getResponse, _⟩, List.mem_append_right _ List.mem_cons_self, rfl⟩

/-- the look for a block, and what comes of it -/
theorem runs_ingress {summary : Summary} {scopes : List BlockScope}
    {found : Except Exc (Option BlockEntry)} {s' s'' : σ} {t : List (Happening Response)}
    {r : Except Exc (Option Response)}
    (hsum : ingressSummary django.trustedProxyConfig django.emitSessionId request = .ok summary)
    (hscopes : rt.scopeRegistry.blockScopes summary none = .ok scopes)
    (hfound : site.store.firstActive scopes s = (found, s'))
    (h : Runs site.handler (onLookup http py rt request.path summary found) s' t r s'') :
    Runs site.handler (ingress http py rt django request) s (⟨.firstActive scopes, found⟩ :: t) r
      s'' := by
  have hlook := Runs.perform (h := site.handler)
    (Eff.firstActive scopes : Eff Response (Option BlockEntry)) s
  rw [show site.handler _ (Eff.firstActive scopes) s = (found, s') from hfound] at hlook
  exact Runs.ofExcept_ok hsum (Runs.ofExcept_ok hscopes (hlook.attempt h))

/-- **an active block denies** exactly when its response can be built -/
theorem block_denies (hen : rt.config.enabled = true) {summary : Summary}
    {scopes : List BlockScope} {entry : BlockEntry} {s' : σ}
    (hsum : ingressSummary django.trustedProxyConfig django.emitSessionId request = .ok summary)
    (hscopes : rt.scopeRegistry.blockScopes summary none = .ok scopes)
    (hfound : site.store.firstActive scopes s = (.ok (some entry), s')) :
    Denies http entry.statusCode entry.message
        (trace site.handler (enforcementMiddleware http py django request (.ok rt)) s)
        (exec site.handler (enforcementMiddleware http py django request (.ok rt)) s).1 ↔
      http.encodes entry.message = true ∧ 100 ≤ entry.statusCode ∧ entry.statusCode ≤ 599 := by
  obtain ⟨t, hrun, ht⟩ := @runs_blocked Response σ http site py rt request.path summary entry s'
  have hingress := runs_ingress hsum hscopes hfound hrun
  rw [middleware_enabled hen, ← http.build_ok]
  cases hb : http.build entry.message entry.statusCode with
  | error x =>
    rw [hb] at hingress
    obtain ⟨y, hy, hcall⟩ := enforceIngress_called hingress nofun
    exact iff_of_false (fun h => Bool.false_ne_true ((h.uncalled y hy).symm.trans hcall))
      fun ⟨_, h⟩ => nomatch h
  | ok response =>
    rw [hb] at hingress
    have hwhole := enforceIngress_denied hingress
    rw [hwhole.trace_eq, hwhole.result]
    refine iff_of_true ⟨fun x hx => ?_, hb, response, rfl⟩ ⟨response, rfl⟩
    rcases List.mem_cons.mp hx with rfl | hx
    · exact rfl
    · exact ht x hx

end

/-! ## on a block with a status that is none -/

/-- the texts that UTF-8 can encode, the statuses of HTTP -/
def HttpResponses.sample : HttpResponses Str where
  build message status :=
    if encodable message = true ∧ 100 ≤ status ∧ status ≤ 599 then .ok message
    else .error (.valueError (str "HTTP status code must be an integer from 100 to 599."))
  encodes := encodable
  build_ok message status := by
    split
    · rename_i h
      exact iff_of_true ⟨message, rfl⟩ h
    · rename_i h
      exact iff_of_false (fun ⟨_, h'⟩ => nomatch h') h

/-- a store with one block, which is that of whoever asks -/
def keepingStore : BlockStore (Option BlockEntry) where
  block scope a _ _ := (.ok (.make scope a none none), some (.make scope a none none))
  unblock _ _ _ _ := (.ok 0, none)
  firstActive _ s := (.ok s, s)

def keepingSite : Site Str (Option BlockEntry) where
  clock _ := 1000
  timeNs _ := 1
  ruleEvaluate _ _ _ s := (.ok .none, s)
  ruleAttributes _ _ _ s := (.ok .none, s)
  sink _ _ s := (.ok (), s)
  append _ _ _ s := (.ok (), s)
  store := keepingStore
  getResponse s := (.ok (str "the view"), s)

def enforcing : DjangoEnforcementRuntime where
  config := { enabled := true }
  scopeRegistry := .default .sample
  rules := []
  schemaVersion := str "1.0"
  schema_ne := schemaOne_ne

/-- a request of an address, by nobody -/
def Request.sample : Request where
  META := [(str "REMOTE_ADDR", str "203.0.113.7")]
  path := str "/x/"
  method := str "GET"
  user := .ok none
  session := .ok none

def DjangoAuditConfig.sample : DjangoAuditConfig .sample := { trustedProxyConfig := .off .sample }

/-- the middleware on the request -/
def enforceSample : Routine Str Str :=
  enforcementMiddleware .sample .sample DjangoAuditConfig.sample .sample (.ok enforcing)

/-- after `block_subject` of the address -/
def afterBlock (status : Int) : Option BlockEntry :=
  (exec keepingSite.handler (blockSubject .sample enforcing (str "ip") (str "203.0.113.7")
    { statusCode := some status } none) none).2

theorem block_denies_client : ∃ entry, afterBlock 403 = some entry ∧
    (Denies HttpResponses.sample entry.statusCode entry.message
        (trace keepingSite.handler enforceSample (some entry))
        (exec keepingSite.handler enforceSample (some entry)).1 ↔
      encodable entry.message = true ∧ 100 ≤ entry.statusCode ∧ entry.statusCode ≤ 599) := by
  rcases he : afterBlock 403 with _ | entry
  · have h : (afterBlock 403).isSome = true := by decide +kernel
    rw [he] at h
    cases h
  rcases hsum : ingressSummary DjangoAuditConfig.sample.trustedProxyConfig
    DjangoAuditConfig.sample.emitSessionId .sample with x | summary
  · have h : (ingressSummary DjangoAuditConfig.sample.trustedProxyConfig
        DjangoAuditConfig.sample.emitSessionId .sample).toBool = true := by decide +kernel
    rw [hsum] at h
    cases h
  obtain ⟨scopes, hscopes, -⟩ := @default_blockScopes summary Builtins.sample none
  exact ⟨entry, rfl, @block_denies Str _ HttpResponses.sample keepingSite .sample enforcing
    (some entry) _ DjangoAuditConfig.sample .sample rfl summary scopes entry (some entry) hsum
    hscopes rfl⟩

/-- a status that `block_subject` stores, and no response has -/
theorem block_lets_through : ¬ ∀ entry, afterBlock 700 = some entry →
    Denies HttpResponses.sample entry.statusCode entry.message
      (trace keepingSite.handler enforceSample (some entry))
      (exec keepingSite.handler enforceSample (some entry)).1 := by
  intro h
  rcases he : afterBlock 700 with _ | entry
  · have h : (afterBlock 700).isSome = true := by decide +kernel
    rw [he] at h
    cases h
  have hd := h entry he
  have hview : (trace keepingSite.handler enforceSample (afterBlock 700)).any callsView = true := by
    decide +kernel
  rw [he] at hview
  obtain ⟨x, hx, hcall⟩ := List.any_eq_true.mp hview
  exact Bool.false_ne_true ((hd.uncalled x hx).symm.trans hcall)

end SecAudit
