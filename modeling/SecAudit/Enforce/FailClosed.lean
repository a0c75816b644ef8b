import SecAudit.Enforce.Middleware
import SecAudit.Enforce.Removals

/-!
# Paths that fail closed

* `Passes`          no block was found, and the safe rules found nothing that blocks;
* `FailsClosed`     only then is the view called, and else the request is denied;
* `AppliedAll`      each match of the safe rules is applied without an exception;
* `Contained`       whatever goes wrong is a failure of the store at the lookup, and the response to
                    deny with can be built;
* `fail_closed`     a path that fails closed never fails open, exactly when all is contained.
-/

set_option linter.unusedVariables false

namespace SecAudit
open Py Prog

/-! ## the safe rules -/

section
variable {Response σ : Type} (http : HttpResponses Response) (py : Interp)
  (rt : DjangoEnforcementRuntime)

/-- a match whose action blocks -/
def Blocking (m : RuleMatch) : Prop :=
  ∃ action, rt.enforcer.resolveAction py m = .ok action ∧ action.action ∈ BLOCKING_ACTIONS

/-- the response that the last match to block asks for -/
def lastDenial : List RuleMatch → Option (Int × Str) → Option (Int × Str)
  | [], denied => denied
  | m :: l, denied => lastDenial l <| match rt.enforcer.resolveAction py m with
    | .ok action => if action.action ∈ BLOCKING_ACTIONS then some (denial rt action) else denied
    | .error _ => denied

/-- every match has a plan, and every write of the plans returns -/
def AppliedAll (store : BlockStore σ) (summary : Summary) : List RuleMatch → σ → Prop
  | [], _ => True
  | m :: l, s => ∃ plan s', planOf py rt.enforcer m summary = .ok plan ∧
    writeAll store plan.writes s = (true, s') ∧ AppliedAll store summary l s'

/-- whether `_eval_safe` is run -/
def evaluatesSafe : Bool := rt.config.evalSafeOnIngress && !rt.config.applyViaSink

variable (site : Site Response σ) (s : σ)

/-- what the safe rules give, from `s` -/
def safeMatches (summary : Summary) : Except Exc (List RuleMatch) × σ :=
  exec site.handler ((rt.engine py).evaluate py.frames
    (synthesizePreRequestEvent py.toBuiltins summary) true) s

variable {lib : IpLibrary} (django : DjangoAuditConfig lib) (request : Request)

/-- the lookup gave no block, and the safe rules, if they ran, nothing that blocks -/
def Passes : Prop :=
  ∃ summary scopes s₁,
    ingressSummary django.trustedProxyConfig django.emitSessionId request = .ok summary ∧
    rt.scopeRegistry.blockScopes summary none = .ok scopes ∧
    site.store.firstActive scopes s = (.ok none, s₁) ∧
    (evaluatesSafe rt = true →
      ∀ m ∈ (safeMatches py rt site s₁ summary).1.toOption.getD [], ¬ Blocking py rt m)

/-- the response can be built -/
def HttpResponses.Builds (message : Str) (status : Int) : Prop :=
  http.encodes message = true ∧ 100 ≤ status ∧ status ≤ 599

/-- what may go wrong at the lookup or after it is dealt with -/
def ContainedAt (summary : Summary) : Except Exc (Option BlockEntry) × σ → Prop
  | (.error e, _) => e.isBlockStoreError = true ∧ http.Builds rt.config.message rt.config.statusCode
  | (.ok (some entry), _) => http.Builds entry.message entry.statusCode
  | (.ok none, s₁) => evaluatesSafe rt = true → ∀ found,
    (safeMatches py rt site s₁ summary).1 = .ok found → (∃ m ∈ found, Blocking py rt m) →
      AppliedAll py rt site.store summary found (safeMatches py rt site s₁ summary).2 ∧
      ∀ denied ∈ lastDenial py rt found none, http.Builds denied.2 denied.1

/-- the request can be looked up, and what may go wrong then is dealt with -/
def Contained : Prop :=
  ∃ summary scopes,
    ingressSummary django.trustedProxyConfig django.emitSessionId request = .ok summary ∧
    rt.scopeRegistry.blockScopes summary none = .ok scopes ∧
    ContainedAt http py rt site summary (site.store.firstActive scopes s)

end

/-- the request was denied -/
def Denied {Response : Type} (http : HttpResponses Response) (t : List (Happening Response))
    (r : Except Exc Response) : Prop :=
  (∀ x ∈ t, callsView x = false) ∧
    ∃ status message response, http.build message status = .ok response ∧ r = .ok response

/-- the view is called only if the request passes, and a request that does not is denied -/
structure FailsClosed {Response : Type} (http : HttpResponses Response) (passes : Prop)
    (t : List (Happening Response)) (r : Except Exc Response) : Prop where
  called : (∃ x ∈ t, callsView x = true) → passes
  denied : ¬ passes → Denied http t r

/-! ## the loop over the matches -/

section
variable {Response σ : Type} {site : Site Response σ} {py : Interp} {rt : DjangoEnforcementRuntime}
  {summary : Summary} {m : RuleMatch}

/-- one turn of the loop -/
theorem applySafe_cons {action : RuleAction} (ha : rt.enforcer.resolveAction py m = .ok action)
    (l : List RuleMatch) (denied : Option (Int × Str)) :
    (applySafe py rt summary (m :: l) denied : Routine Response _)
      = announce py rt.enforcer m summary >>= fun _ => applySafe py rt summary l
        (if action.action ∈ BLOCKING_ACTIONS then some (denial rt action) else denied) := by
  unfold announce
  rw [bind_bind, Enforcer.enforce, bind_bind, ha, applySafe, ha]
  rfl

/-- **the loop** ends with the response of the last match to block, or raises -/
theorem applySafe_result : ∀ (found : List RuleMatch) (denied : Option (Int × Str)) (s : σ),
    (AppliedAll py rt site.store summary found s ∧
      (exec site.handler (applySafe py rt summary found denied) s).1
        = .ok (lastDenial py rt found denied)) ∨
    (¬ AppliedAll py rt site.store summary found s ∧
      ∃ x, (exec site.handler (applySafe py rt summary found denied) s).1 = .error x)
  | [], denied, s => .inl ⟨trivial, rfl⟩
  | m :: l, denied, s => by
    cases ha : rt.enforcer.resolveAction py m with
    | error x =>
      have hp : planOf py rt.enforcer m summary = .error x := by
        unfold planOf
        rw [ha]
        rfl
      refine .inr ⟨fun ⟨plan, _, h, _⟩ => ?_, x, ?_⟩
      · rw [hp] at h
        cases h
      · rw [applySafe, ha]
        rfl
    | ok action =>
      rw [applySafe_cons ha, lastDenial, ha]
      cases hp : planOf py rt.enforcer m summary with
      | error x =>
        refine .inr ⟨fun ⟨plan, _, h, _⟩ => ?_, x, ?_⟩
        · rw [hp] at h
          cases h
        · rw [exec_bind_error _ (runs_announce_error hp).exec_eq]
      | ok plan =>
        rcases hw : writeAll site.store plan.writes s with ⟨ok, s'⟩
        cases ok with
        | false =>
          obtain ⟨t, x, n, written, hrun, -⟩ := runs_announce_failed hp hw
          refine .inr ⟨fun ⟨plan', s'', h, h', _⟩ => ?_, x, ?_⟩
          · rw [hp] at h
            obtain rfl := Except.ok.inj h
            rw [hw] at h'
            cases h'
          · rw [exec_bind_error _ hrun.exec_eq]
        | true =>
          obtain ⟨t, written, hrun, -⟩ := runs_announce_ok hp hw
          rw [exec_bind_ok _ hrun.exec_eq]
          have happlied : AppliedAll py rt site.store summary (m :: l) s ↔
              AppliedAll py rt site.store summary l s' := by
            constructor
            · rintro ⟨plan', s'', h, h', hrest⟩
              rw [hp] at h
              obtain rfl := Except.ok.inj h
              rw [hw] at h'
              rw [(Prod.mk.inj h').2]
              exact hrest
            · exact fun h => ⟨plan, s', hp, hw, h⟩
          rw [happlied]
          exact applySafe_result l _ s'

/-- a response stays, or another takes its place -/
theorem lastDenial_some : ∀ (found : List RuleMatch) (denied : Int × Str),
    ∃ denied', lastDenial py rt found (some denied) = some denied'
  | [], denied => ⟨denied, rfl⟩
  | m :: l, denied => by
    rw [lastDenial]
    cases rt.enforcer.resolveAction py m with
    | error x => exact lastDenial_some l denied
    | ok action =>
      dsimp only
      split
      · exact lastDenial_some l _
      · exact lastDenial_some l denied

/-- with a match that blocks, a response -/
theorem lastDenial_blocking : ∀ {found : List RuleMatch} (denied : Option (Int × Str)),
    (∃ m ∈ found, Blocking py rt m) → ∃ denied', lastDenial py rt found denied = some denied'
  | [], _, h => absurd h.choose_spec.1 List.not_mem_nil
  | m :: l, denied, ⟨m', hm, hb⟩ => by
    rw [lastDenial]
    rcases List.mem_cons.mp hm with rfl | hm
    · obtain ⟨action, ha, hblocks⟩ := hb
      rw [ha]
      dsimp only
      rw [if_pos hblocks]
      exact lastDenial_some l _
    · exact lastDenial_blocking _ ⟨m', hm, hb⟩

end

/-! ## before the view -/

section
variable {Response : Type}

/-- a call that is not of the view -/
def Viewless (β : Type) : Eff Response β → Prop
  | .getResponse => False
  | _ => True

theorem viewless_rules : AllowsRules (Viewless : (β : Type) → Eff Response β → Prop) where
  clock := trivial
  evaluate _ _ _ := trivial
  attributes _ _ _ := trivial
  append _ _ _ := trivial

theorem viewless_apply : Enforcer.AllowsApply (Viewless : (β : Type) → Eff Response β → Prop) where
  block _ _ _ := trivial
  timeNs := trivial

theorem callsView_viewless {x : Happening Response} (h : Viewless _ x.cmd) : callsView x = false := by
  obtain ⟨c, r⟩ := x
  cases c <;> first | rfl | exact h.elim

variable {http : HttpResponses Response} {py : Interp} {rt : DjangoEnforcementRuntime}
  {summary : Summary}

theorem viewless_emitEach : ∀ results : List Built,
    Only Viewless (emitEach results : Routine Response Unit)
  | [] => only_done _
  | built :: l => Only.bind (only_perform trivial) fun _ => viewless_emitEach l

theorem viewless_safeEmit (failMode : Str) (error : Exc) :
    Only Viewless (safeEmit py rt failMode error : Routine Response Unit) :=
  Only.catchWith (Only.bind (only_perform trivial) fun _ => Only.ofExcept fun _ _ =>
    only_perform trivial) fun _ => only_done _

theorem viewless_deny (status : Int) (message : Str) : Only Viewless (deny http status message) :=
  Only.ofExcept fun _ _ => only_done _

theorem viewless_applySafe : ∀ (found : List RuleMatch) (denied : Option (Int × Str)),
    Only Viewless (applySafe py rt summary found denied : Routine Response _)
  | [], _ => only_done _
  | m :: l, denied => by
    unfold applySafe
    refine Only.ofExcept fun action ha => ?_
    refine Only.bind ?_ fun results => Only.bind (viewless_emitEach results) fun _ =>
      viewless_applySafe l _
    have h : Only Viewless (rt.enforcer.enforce py m summary : Routine Response _) :=
      Enforcer.only_enforce viewless_apply summary
    unfold Enforcer.enforce at h
    rw [ha] at h
    exact h

theorem engine_sinks_none (h : evaluatesSafe rt = true) :
    (rt.engine py : RuleEngine Response).resultSinks = [] := by
  unfold evaluatesSafe at h
  rw [Bool.and_eq_true, Bool.not_eq_true'] at h
  exact if_neg (by rw [h.2]; exact Bool.false_ne_true)

theorem viewless_evaluate (h : evaluatesSafe rt = true) (event : RuleEvent) :
    Only Viewless ((rt.engine py).evaluate py.frames event true : Routine Response _) := by
  refine only_evaluate viewless_rules fun sink hsink => ?_
  rw [engine_sinks_none h] at hsink
  exact absurd hsink List.not_mem_nil

theorem viewless_afterLookup : Only Viewless (afterLookup http py rt summary) := by
  unfold afterLookup
  split
  · rename_i h
    refine (viewless_evaluate h _).attempt fun r => ?_
    split
    · exact only_done _
    · refine Only.bind (viewless_applySafe _ _) fun denied => ?_
      cases denied with
      | none => exact only_done _
      | some d => exact viewless_deny _ _
  · exact only_done _

theorem viewless_onLookup (path : Str) (r : Except Exc (Option BlockEntry)) :
    Only Viewless (onLookup http py rt path summary r) := by
  rcases r with e | entry
  · rw [onLookup]
    split
    · split
      · exact Only.bind (viewless_safeEmit _ _) fun _ => viewless_deny _ _
      · exact Only.bind (viewless_safeEmit _ _) fun _ => viewless_afterLookup
    · exact only_done _
  · cases entry with
    | none => exact viewless_afterLookup
    | some entry =>
      exact Only.bind (only_perform trivial) fun _ => Only.ofExcept fun _ _ =>
        Only.bind (only_perform trivial) fun _ => viewless_deny _ _

variable {lib : IpLibrary} {django : DjangoAuditConfig lib} {request : Request}

/-- **the look before the view** does not call it -/
theorem viewless_ingress : Only Viewless (ingress http py rt django request) :=
  Only.ofExcept fun summary _ => Only.ofExcept fun scopes _ =>
    Only.attempt (only_perform trivial) fun r => viewless_onLookup _ r

end

/-! ## what comes of the look -/

section
variable {Response σ : Type} {http : HttpResponses Response} {site : Site Response σ} {py : Interp}
  {rt : DjangoEnforcementRuntime} {summary : Summary} {s : σ}

/-- a response to deny with -/
def Answered (http : HttpResponses Response) (r : Except Exc (Option Response)) : Prop :=
  ∃ status message response, http.build message status = .ok response ∧ r = .ok (some response)

/-- a response to deny with, or the view is called -/
def Decides (http : HttpResponses Response) (answered : Prop) (r : Except Exc (Option Response)) :
    Prop :=
  (answered → Answered http r) ∧ (¬ answered → ∀ response, r ≠ .ok (some response))

theorem decides_not {answered : Prop} {r : Except Exc (Option Response)} (h : ¬ answered)
    (hr : ∀ response, r ≠ .ok (some response)) : Decides http answered r :=
  ⟨fun h' => absurd h' h, fun _ => hr⟩

theorem decides_deny (status : Int) (message : Str) (s : σ) :
    Decides http (http.Builds message status)
      (exec site.handler (deny http status message) s).1 := by
  unfold HttpResponses.Builds deny
  rw [← http.build_ok]
  cases hb : http.build message status with
  | error x => exact decides_not (fun ⟨_, h⟩ => nomatch h) nofun
  | ok response =>
    exact ⟨fun _ => ⟨status, message, response, hb, rfl⟩, fun h => absurd ⟨response, rfl⟩ h⟩

/-- **after a lookup that gave nothing**: denied when a match blocks, all are applied and the last
response can be built -/
theorem decides_afterLookup : Decides http
    (evaluatesSafe rt = true ∧ ∃ found, (safeMatches py rt site s summary).1 = .ok found ∧
      AppliedAll py rt site.store summary found (safeMatches py rt site s summary).2 ∧
      ∃ denied, lastDenial py rt found none = some denied ∧ http.Builds denied.2 denied.1)
    (exec site.handler (afterLookup http py rt summary) s).1 := by
  unfold afterLookup
  by_cases hsafe : evaluatesSafe rt = true
  · rw [if_pos (show (_ && _) = true from hsafe)]
    unfold evalSafe
    rw [exec_attempt]
    rcases hx : safeMatches py rt site s summary with ⟨r, s₂⟩
    unfold safeMatches at hx
    rw [hx]
    cases r with
    | error x => exact decides_not (fun ⟨_, found, h, _⟩ => nomatch h) nofun
    | ok found =>
      have hgo := @applySafe_result Response σ site py rt summary found none s₂
      show Decides http _ (exec site.handler (applySafe py rt summary found none >>=
        denyLast http) s₂).1
      rw [exec_bind]
      rcases ha : exec site.handler (applySafe py rt summary found none) s₂ with ⟨d, s₃⟩
      rw [ha] at hgo
      rcases hgo with ⟨happlied, hd⟩ | ⟨hnot, x, hd⟩
      · replace hd : d = .ok (lastDenial py rt found none) := hd
        subst hd
        dsimp only
        cases hl : lastDenial py rt found none with
        | none =>
          refine decides_not ?_ nofun
          rintro ⟨-, found', hf, -, denied, hd, -⟩
          rw [← Except.ok.inj hf, hl] at hd
          cases hd
        | some denied =>
          have hdeny := @decides_deny Response σ http site denied.1 denied.2 s₃
          refine ⟨fun h => hdeny.1 ?_, fun h => hdeny.2 fun hb => h ?_⟩
          · obtain ⟨-, found', hf, -, denied', hd, hb⟩ := h
            rw [← Except.ok.inj hf, hl] at hd
            rw [Option.some.inj hd]
            exact hb
          · exact ⟨hsafe, found, rfl, happlied, denied, hl, hb⟩
      · replace hd : d = .error x := hd
        subst hd
        refine decides_not ?_ nofun
        rintro ⟨-, found', hf, happlied, -⟩
        rw [← Except.ok.inj hf] at happlied
        exact hnot happlied
  · rw [if_neg (show ¬ (_ && _) = true from hsafe)]
    exact decides_not (fun h => hsafe h.1) nofun

/-- the lookup leads to a response to deny with -/
def AnsweredAt (http : HttpResponses Response) (py : Interp) (rt : DjangoEnforcementRuntime)
    (site : Site Response σ) (summary : Summary) : Except Exc (Option BlockEntry) × σ → Prop
  | (.error e, _) => e.isBlockStoreError = true ∧ http.Builds rt.config.message rt.config.statusCode
  | (.ok (some entry), _) => http.Builds entry.message entry.statusCode
  | (.ok none, s₁) => evaluatesSafe rt = true ∧ ∃ found,
    (safeMatches py rt site s₁ summary).1 = .ok found ∧
    AppliedAll py rt site.store summary found (safeMatches py rt site s₁ summary).2 ∧
    ∃ denied, lastDenial py rt found none = some denied ∧ http.Builds denied.2 denied.1

theorem decides_onLookup {path : Str} (hpath : failClosed rt.config path = true)
    (looked : Except Exc (Option BlockEntry) × σ) : Decides http
      (AnsweredAt http py rt site summary looked)
      (exec site.handler (onLookup http py rt path summary looked.1) looked.2).1 := by
  obtain ⟨r, s₁⟩ := looked
  rcases r with e | entry
  · by_cases he : e.isBlockStoreError = true
    · obtain ⟨t, hrun, -⟩ := @runs_safeEmit Response σ site py rt (str "closed") e s₁
      have hdeny := @decides_deny Response σ http site rt.config.statusCode rt.config.message s₁
      rw [onLookup, if_pos he, if_pos hpath, exec_bind_ok _ hrun.exec_eq]
      exact ⟨fun h => hdeny.1 h.2, fun h => hdeny.2 fun hb => h ⟨he, hb⟩⟩
    · rw [onLookup, if_neg he]
      exact decides_not (fun h => he h.1) nofun
  · cases entry with
    | none => exact decides_afterLookup
    | some entry =>
      obtain ⟨t, hrun, -⟩ := @runs_blocked Response σ http site py rt path summary entry s₁
      have hdeny := @decides_deny Response σ http site entry.statusCode entry.message s₁
      have hexec : (exec site.handler (onLookup http py rt path summary (.ok (some entry))) s₁).1
          = (exec site.handler (deny http entry.statusCode entry.message) s₁).1 := by
        rw [hrun.result]
        unfold deny
        cases http.build entry.message entry.statusCode <;> rfl
      rw [hexec]
      exact hdeny

variable {lib : IpLibrary} {django : DjangoAuditConfig lib} {request : Request}

/-- the request leads to a response to deny with -/
def AnsweredFor (http : HttpResponses Response) (py : Interp) (rt : DjangoEnforcementRuntime)
    (site : Site Response σ) (s : σ) (django : DjangoAuditConfig lib) (request : Request) : Prop :=
  ∃ summary scopes,
    ingressSummary django.trustedProxyConfig django.emitSessionId request = .ok summary ∧
    rt.scopeRegistry.blockScopes summary none = .ok scopes ∧
    AnsweredAt http py rt site summary (site.store.firstActive scopes s)

theorem decides_ingress (hpath : failClosed rt.config request.path = true) :
    Decides http (AnsweredFor http py rt site s django request)
      (exec site.handler (ingress http py rt django request) s).1 := by
  unfold AnsweredFor ingress
  cases hsum : ingressSummary django.trustedProxyConfig django.emitSessionId request with
  | error x => exact decides_not (fun ⟨_, _, h, _⟩ => nomatch h) nofun
  | ok summary =>
    cases hscopes : rt.scopeRegistry.blockScopes summary none with
    | error x =>
      refine decides_not ?_ ?_
      · rintro ⟨summary', scopes, h, h', -⟩
        rw [← Except.ok.inj h, hscopes] at h'
        cases h'
      · show ∀ response, (exec site.handler (ofExcept (rt.scopeRegistry.blockScopes summary none)
          >>= fun _ => _) s).1 ≠ _
        rw [hscopes]
        exact nofun
    | ok scopes =>
      have hlook := @decides_onLookup Response σ http site py rt summary _ hpath
        (site.store.firstActive scopes s)
      have hexec : (exec site.handler (ofExcept (.ok summary) >>= fun summary =>
          ofExcept (rt.scopeRegistry.blockScopes summary none) >>= fun scopes =>
            (perform (Eff.firstActive scopes)).attempt (onLookup http py rt request.path summary)) s).1
          = (exec site.handler (onLookup http py rt request.path summary
            (site.store.firstActive scopes s).1) (site.store.firstActive scopes s).2).1 := by
        show (exec site.handler (ofExcept (rt.scopeRegistry.blockScopes summary none) >>=
          fun scopes => (perform (Eff.firstActive scopes)).attempt
            (onLookup http py rt request.path summary)) s).1 = _
        rw [hscopes]
        rfl
      rw [hexec]
      refine ⟨fun ⟨summary', scopes', h, h', ha⟩ => hlook.1 ?_, fun h => hlook.2 fun ha => h ?_⟩
      · rw [← Except.ok.inj h, hscopes] at h'
        rw [Except.ok.inj h, Except.ok.inj h']
        exact ha
      · exact ⟨summary, scopes, rfl, hscopes, ha⟩

/-- what is contained: a response to deny with, or a request that passes -/
theorem contained_iff : Contained http py rt site s django request ↔
    AnsweredFor http py rt site s django request ∨ Passes py rt site s django request := by
  constructor
  · rintro ⟨summary, scopes, hsum, hscopes, hc⟩
    rcases hf : site.store.firstActive scopes s with ⟨r, s₁⟩
    rw [hf] at hc
    rcases r with e | entry
    · exact .inl ⟨summary, scopes, hsum, hscopes, by rw [hf]; exact hc⟩
    · cases entry with
      | some entry => exact .inl ⟨summary, scopes, hsum, hscopes, by rw [hf]; exact hc⟩
      | none =>
        by_cases hb : evaluatesSafe rt = true ∧
          ∃ m ∈ (safeMatches py rt site s₁ summary).1.toOption.getD [], Blocking py rt m
        · obtain ⟨hsafe, m, hm, hb⟩ := hb
          rcases hr : (safeMatches py rt site s₁ summary).1 with x | found
          · rw [hr] at hm
            exact absurd hm List.not_mem_nil
          · rw [hr] at hm
            obtain ⟨happlied, hbuilds⟩ := hc hsafe found hr ⟨m, hm, hb⟩
            obtain ⟨denied, hd⟩ := lastDenial_blocking none ⟨m, hm, hb⟩
            refine .inl ⟨summary, scopes, hsum, hscopes, ?_⟩
            rw [hf]
            exact ⟨hsafe, found, hr, happlied, denied, hd, hbuilds denied hd⟩
        · refine .inr ⟨summary, scopes, s₁, hsum, hscopes, hf, fun hsafe m hm hblocks => ?_⟩
          exact hb ⟨hsafe, m, hm, hblocks⟩
  · rintro (⟨summary, scopes, hsum, hscopes, ha⟩ | ⟨summary, scopes, s₁, hsum, hscopes, hf, hnone⟩)
    · refine ⟨summary, scopes, hsum, hscopes, ?_⟩
      rcases hf : site.store.firstActive scopes s with ⟨r, s₁⟩
      rw [hf] at ha
      rcases r with e | entry
      · exact ha
      · cases entry with
        | some entry => exact ha
        | none =>
          obtain ⟨-, found, hr, happlied, denied, hd, hb⟩ := ha
          intro _ found' hr' _
          rw [hr] at hr'
          rw [← Except.ok.inj hr']
          refine ⟨happlied, fun denied' hd' => ?_⟩
          rw [hd] at hd'
          rw [← Option.some.inj hd']
          exact hb
    · refine ⟨summary, scopes, hsum, hscopes, ?_⟩
      rw [hf]
      intro hsafe found hr ⟨m, hm, hb⟩
      have h := hnone hsafe m
      rw [hr] at h
      exact absurd hb (h hm)

/-- **a path that fails closed never fails open**, exactly when whatever goes wrong is contained -/
theorem fail_closed (hen : rt.config.enabled = true)
    (hpath : failClosed rt.config request.path = true) :
    FailsClosed http (Passes py rt site s django request)
        (trace site.handler (enforcementMiddleware http py django request (.ok rt)) s)
        (exec site.handler (enforcementMiddleware http py django request (.ok rt)) s).1 ↔
      Contained http py rt site s django request := by
  rw [middleware_enabled hen, contained_iff]
  have hrun := runs_self site.handler (ingress http py rt django request) s
  have hview : ∀ x ∈ trace site.handler (ingress http py rt django request) s,
      callsView x = false := fun x hx => callsView_viewless (viewless_ingress.of_trace hx)
  obtain ⟨hyes, hno⟩ := @decides_ingress Response σ http site py rt s lib django request hpath
  by_cases ha : AnsweredFor http py rt site s django request
  · obtain ⟨status, message, response, hb, hr⟩ := hyes ha
    rw [hr] at hrun
    have hwhole := enforceIngress_denied hrun
    rw [hwhole.trace_eq, hwhole.result]
    refine iff_of_true ⟨?_, fun _ => ⟨hview, status, message, response, hb, rfl⟩⟩ (.inl ha)
    rintro ⟨x, hx, hcall⟩
    rw [hview x hx] at hcall
    cases hcall
  · obtain ⟨x, hx, hcall⟩ := enforceIngress_called hrun (hno ha)
    rw [or_iff_right ha]
    refine ⟨fun h => h.called ⟨x, hx, hcall⟩, fun hp => ⟨fun _ => hp, fun hn => absurd hp hn⟩⟩

end

/-! ## on a payload that cannot be read -/

/-- every path fails closed -/
def guarding : DjangoEnforcementRuntime :=
  { enforcing with config := { enforcing.config with failClosedPaths := [fun _ => true] } }

/-- no rules to speak of, and the tiered store -/
def storeSite : Site Str World where
  clock w := w.now
  timeNs _ := 1
  ruleEvaluate _ _ _ w := (.ok .none, w)
  ruleAttributes _ _ _ w := (.ok .none, w)
  sink _ _ w := (.ok (), w)
  append _ _ _ w := (.ok (), w)
  store := TieredBlockStore.sample.store .sample
  getResponse w := (.ok (str "the view"), w)

/-- `guarding` on the request -/
def guardSample : Routine Str Str :=
  enforcementMiddleware .sample .sample DjangoAuditConfig.sample .sample (.ok guarding)

theorem fail_closed_outage :
    FailsClosed HttpResponses.sample
        (Passes .sample guarding storeSite { World.empty 0 with faults := [some .down] }
          DjangoAuditConfig.sample .sample)
        (trace storeSite.handler guardSample { World.empty 0 with faults := [some .down] })
        (exec storeSite.handler guardSample { World.empty 0 with faults := [some .down] }).1 ↔
      Contained HttpResponses.sample .sample guarding storeSite
        { World.empty 0 with faults := [some .down] } DjangoAuditConfig.sample .sample :=
  fail_closed rfl rfl

/-- the entry of the address in Redis is cut off -/
def brokenWorld : World :=
  { World.empty 0 with
    redis := ExpMap.put (TieredBlockStore.sample.redis.key .sampleClient) (str "\x7b") 1000 [] }

/-- the scopes of the request -/
def sampleScopes : Option (List BlockScope) :=
  (ingressSummary DjangoAuditConfig.sample.trustedProxyConfig
    DjangoAuditConfig.sample.emitSessionId .sample).toOption.bind fun summary =>
      (guarding.scopeRegistry.blockScopes summary none).toOption

/-- the entry cannot be read, and the view is called -/
theorem fails_open : ¬ FailsClosed HttpResponses.sample
    (Passes .sample guarding storeSite brokenWorld DjangoAuditConfig.sample .sample)
    (trace storeSite.handler guardSample brokenWorld)
    (exec storeSite.handler guardSample brokenWorld).1 := by
  intro h
  have hview : (trace storeSite.handler guardSample brokenWorld).any callsView = true := by
    decide +kernel
  have hscopes : sampleScopes = some [.sampleClient] := by decide +kernel
  have hlook : (storeSite.store.firstActive [.sampleClient] brokenWorld).1.toBool = false := by
    decide +kernel
  obtain ⟨x, hx, hcall⟩ := List.any_eq_true.mp hview
  obtain ⟨summary, scopes, s₁, hsum, hs, hf, -⟩ := h.called ⟨x, hx, hcall⟩
  unfold sampleScopes at hscopes
  rw [hsum] at hscopes
  replace hscopes : (guarding.scopeRegistry.blockScopes summary none).toOption
    = some [.sampleClient] := hscopes
  rw [hs] at hscopes
  obtain rfl := Option.some.inj hscopes
  rw [hf] at hlook
  cases hlook

end SecAudit
