import SecAudit.Enforce.Middleware
import SecAudit.Prog.Stays
import SecAudit.Rules.Issues

/-!
# From one match to every event and request

What holds of the calls that enforce one match holds of all that is done for an event, and of all
that is done for a request.

* `Enforces`        the calls that are allowed, for the matches that are expected;
* `stays_evaluate`  an evaluation gives such matches only;
* `stays_consume`, `stays_middleware`  only such calls are made for an event, and for a request.
-/

set_option linter.unusedVariables false

namespace SecAudit
open Py Prog

section
variable {Response : Type}

/-- what is known of the replies, the calls that are allowed, and the matches that are expected -/
structure Enforces (py : Interp) (rt : DjangoEnforcementRuntime) (R : Replies (Eff Response) Exc)
    (P : (β : Type) → Eff Response β → Prop) (M : RuleMatch → Prop) : Prop where
  expected : ∀ rule ∈ rt.rules, ∀ event ctx m, R _ (.ruleEvaluate rule event ctx) (.ok (.found m)) →
    M m
  enforced : ∀ m, M m → ∀ summary, Only P (rt.enforcer.enforce py m summary : Routine Response _)
  rules : AllowsRules P
  timeNs : P _ .timeNs
  emit : ∀ event level, P _ (.emit event level)
  firstActive : ∀ scopes, P _ (.firstActive scopes)
  getResponse : P _ .getResponse

variable {py : Interp} {rt : DjangoEnforcementRuntime} {R : Replies (Eff Response) Exc}
  {P : (β : Type) → Eff Response β → Prop} {M : RuleMatch → Prop} (h : Enforces py rt R P M)
include h

theorem only_emitted : ∀ results : List Built, Only P (emitEach results : Routine Response Unit)
  | [] => only_done _
  | built :: l => Only.bind (only_perform (h.emit _ _)) fun _ => only_emitted l

/-! ## the matches of an evaluation -/

theorem stays_evaluateRule {engine : RuleEngine Response} {rule : Rule} (hrule : rule ∈ rt.rules)
    {ctx : EvaluationContext} {eo : Bool} {attrs : RuleAttrs} :
    Stays R P (fun r : Option RuleMatch × RuleAttrs => ∀ m ∈ r.1, M m)
      (engine.evaluateRule rule ctx eo attrs) := by
  unfold RuleEngine.evaluateRule
  have hattempt : Stays R P (fun o : Outcome => ∀ m, o = .found m → M m)
      (RuleEngine.attemptRule rule ctx : Routine Response Outcome) := by
    unfold RuleEngine.attemptRule
    split
    · refine stays_perform (h.rules.evaluate _ _ _) ?_
      rintro a ha m rfl
      exact h.expected rule hrule _ _ m ha
    · exact stays_throw _
  refine hattempt.attempt (fun outcome ho => ?_) fun e => ?_
  · refine (only_collect h.rules rule attrs).stays.bind fun attrs' _ => ?_
    cases outcome with
    | none => exact stays_pure fun m hm => absurd hm (Option.not_mem_none m)
    | found m => exact stays_pure fun m' hm => Option.mem_some_iff.mp hm ▸ ho m rfl
    | other =>
      show Stays R P _ ((if engine.failOpen then pure none else Prog.throw .typeError) >>= fun found =>
        (pure (found, attrs') : Routine Response _))
      split
      · exact stays_pure fun m hm => absurd hm (Option.not_mem_none m)
      · exact stays_throw _
  · dsimp only
    split
    · exact stays_throw _
    · exact stays_pure fun m hm => absurd hm (Option.not_mem_none m)

theorem stays_runRules {engine : RuleEngine Response} {ctx : EvaluationContext} {eo : Bool} :
    ∀ {rules : List Rule} {found : List RuleMatch} {attrs : RuleAttrs}, rules ⊆ rt.rules →
    (∀ m ∈ found, M m) → Stays R P (fun r : List RuleMatch × RuleAttrs => ∀ m ∈ r.1, M m)
      (engine.runRules ctx eo rules found attrs)
  | [], found, attrs, _, hf => stays_pure hf
  | rule :: rules, found, attrs, hr, hf => by
    obtain ⟨hrule, hr⟩ := List.cons_subset.mp hr
    unfold RuleEngine.runRules
    split
    · refine (stays_evaluateRule h hrule).bind fun r hm => stays_runRules hr ?_
      intro m hmem
      rcases List.mem_append.mp hmem with hmem | hmem
      · exact hf m hmem
      · exact hm m (Option.mem_toList.mp hmem)
    · exact stays_runRules hr hf

omit h in
theorem stays_persistEach {sink : RuleMatch → Routine Response Unit}
    (hs : ∀ m, M m → Only P (sink m)) :
    ∀ found : List RuleMatch, (∀ m ∈ found, M m) → Only P (RuleEngine.persistEach sink found)
  | [], _ => only_done _
  | m :: l, hf =>
    Only.bind ((hs m (hf m List.mem_cons_self)).catchWith fun _ => only_done _) fun _ =>
      stays_persistEach hs l fun m' hm => hf m' (List.mem_cons_of_mem m hm)

theorem only_persist {m : RuleMatch} (hm : M m) :
    Only P (rt.enforcer.persist py m : Routine Response Unit) := by
  unfold Enforcer.persist Enforcer.attemptPersist
  refine Only.catchWith (Only.bind (h.enforced m hm _) fun results => ?_) fun _ => only_done _
  split
  · exact only_emitted h results
  · exact only_done _

/-- **an evaluation** makes the allowed calls, and gives the expected matches -/
theorem stays_evaluate {event : RuleEvent} {eo : Bool} :
    Stays R P (fun found : List RuleMatch => ∀ m ∈ found, M m)
      ((rt.engine py : RuleEngine Response).evaluate py.frames event eo) := by
  unfold RuleEngine.evaluate
  split
  · exact stays_pure fun m hm => absurd hm List.not_mem_nil
  · refine (only_buildEvaluationContext h.rules event).stays.attempt (fun ctx _ => ?_) fun e => ?_
    · dsimp only
      unfold RuleEngine.evaluateIn
      refine (stays_runRules h (List.Subset.refl _) fun m hm => absurd hm List.not_mem_nil).bind
        fun r hr => ?_
      have hsinks : Only P (RuleEngine.persistMatches r.1 (rt.engine py).resultSinks :
          Routine Response Unit) := by
        unfold DjangoEnforcementRuntime.engine
        dsimp only
        split
        · exact Only.bind (stays_persistEach (fun m hm => only_persist h hm) r.1 hr) fun _ =>
            only_done _
        · exact only_done _
      refine hsinks.stays.bind fun _ _ => ?_
      split
      · exact stays_pure hr
      · exact Stays.ofExcept fun summary _ =>
          (only_appendHistory h.rules _ _ _).stays.bind fun _ _ => stays_pure hr
    · dsimp only
      split
      · exact stays_pure fun m hm => absurd hm List.not_mem_nil
      · exact stays_throw _

/-! ## an event, and a request -/

theorem stays_applyEach {summary : Summary} : ∀ found : List RuleMatch, (∀ m ∈ found, M m) →
    Only P (rt.applyEach py summary found : Routine Response Unit)
  | [], _ => only_done _
  | m :: l, hf => by
    unfold DjangoEnforcementRuntime.applyEach
    refine Only.bind (h.enforced m (hf m List.mem_cons_self) summary) fun results =>
      Only.bind (only_emitted h results) fun _ => ?_
    exact stays_applyEach l fun m' hm => hf m' (List.mem_cons_of_mem m hm)

/-- **all that is done for an event** -/
theorem stays_consume (event : AuditEvent) :
    Stays R P (fun _ => True) (consume py (.ok rt) event : Routine Response Unit) := by
  unfold consume
  dsimp only
  split
  · refine Stays.catchWith ?_ fun _ => trivial
    unfold DjangoEnforcementRuntime.handleEvent
    refine (stays_evaluate h).bind fun found hf => ?_
    split
    · trivial
    · exact (stays_applyEach h found hf).stays
  · trivial

variable {http : HttpResponses Response} {lib : IpLibrary} {django : DjangoAuditConfig lib}
  {request : Request}

theorem only_safeEmit (failMode : Str) (error : Exc) :
    Only P (safeEmit py rt failMode error : Routine Response Unit) := by
  unfold safeEmit
  exact Only.catchWith (Only.bind (only_perform h.timeNs) fun now => Only.ofExcept fun built _ =>
    only_perform (h.emit _ _)) fun _ => only_done _

omit h in
theorem only_deny (status : Int) (message : Str) :
    Only P (deny http status message : Routine Response (Option Response)) :=
  Only.ofExcept fun response _ => only_done _

theorem stays_applySafe {summary : Summary} : ∀ (found : List RuleMatch)
    (denied : Option (Int × Str)), (∀ m ∈ found, M m) →
    Only P (applySafe py rt summary found denied : Routine Response _)
  | [], _, _ => only_done _
  | m :: l, denied, hf => by
    have henforce := h.enforced m (hf m List.mem_cons_self) summary
    unfold Enforcer.enforce at henforce
    unfold applySafe
    refine Only.ofExcept fun action ha => ?_
    rw [ha] at henforce
    refine Only.bind henforce fun results => Only.bind (only_emitted h results) fun _ => ?_
    exact stays_applySafe l _ fun m' hm => hf m' (List.mem_cons_of_mem m hm)

theorem stays_afterLookup {summary : Summary} :
    Stays R P (fun _ => True) (afterLookup http py rt summary) := by
  unfold afterLookup
  split
  · unfold evalSafe
    refine (stays_evaluate h).attempt (fun found hf => ?_) fun e => trivial
    refine (Only.bind (stays_applySafe h found none hf) fun denied => ?_).stays
    cases denied with
    | none => exact only_done _
    | some d => exact only_deny d.1 d.2
  · trivial

theorem stays_onLookup {path : Str} {summary : Summary} {r : Except Exc (Option BlockEntry)} :
    Stays R P (fun _ => True) (onLookup http py rt path summary r) := by
  unfold onLookup
  split
  · split
    · split
      · exact (Only.bind (only_safeEmit h _ _) fun _ => only_deny _ _).stays
      · exact (only_safeEmit h _ _).stays.bind fun _ _ => stays_afterLookup h
    · exact stays_throw _
  · exact stays_afterLookup h
  · exact (Only.bind (only_perform h.timeNs) fun now => Only.ofExcept fun built _ =>
      Only.bind (only_perform (h.emit _ _)) fun _ => only_deny _ _).stays

/-- **all that is done for a request** before its view -/
theorem stays_middleware :
    Stays R P (fun _ => True) (enforcementMiddleware http py django request (.ok rt)) := by
  unfold enforcementMiddleware
  dsimp only
  split
  · unfold enforceIngress ingress
    have hingress : Stays R P (fun _ => True) (ofExcept (ingressSummary django.trustedProxyConfig
        django.emitSessionId request) >>= fun summary =>
        ofExcept (rt.scopeRegistry.blockScopes summary none) >>= fun scopes =>
        (perform (.firstActive scopes)).attempt (onLookup http py rt request.path summary)) :=
      Stays.ofExcept fun summary _ => Stays.ofExcept fun scopes _ =>
        (only_perform (h.firstActive scopes)).stays.attempt (fun _ _ => stays_onLookup h)
          fun _ => stays_onLookup h
    refine hingress.attempt (fun r _ => ?_) fun e => ?_
    · cases r with
      | none => exact (only_perform h.getResponse).stays
      | some response => trivial
    · exact (Only.bind (only_safeEmit h _ _) fun _ => only_perform h.getResponse).stays
  · exact (only_perform h.getResponse).stays

end

end SecAudit
