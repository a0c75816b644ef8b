import SecAudit.Enforce.Plan
import SecAudit.Rules.Issues
import SecAudit.Stores.Ops

/-!
# The trail that the enforcement leaves

* `Complete`        a trace carries out plans in full, and tells of each write once;
* `Unharmed`        the writes that fail suppress nothing;
* `accounts_applyEach`, `accounts_persistEach`  the two loops over the matches;
* `complete_handleEvent`  the trail of an event is complete exactly when no failed write suppresses
                    anything.
-/

set_option linter.unusedVariables false

namespace SecAudit
open Py Prog

/-! ## complete trails -/

/-- the plans to carry out; with `stops`, none after a match that raises -/
def planned (stops : Bool) : List (Except Exc Plan) → List Plan
  | [] => []
  | .error _ :: l => if stops then [] else planned stops l
  | .ok plan :: l => plan :: planned stops l

/-- each write is told of once, every write is tried and every alert given -/
structure Complete (x : Seen) (plans : List Plan) : Prop where
  announced : x.applied.Perm x.written
  attempted : x.attempted.Perm (plans.flatMap Plan.writes)
  alerted : x.alerted.Perm (plans.flatMap Plan.alerts)

/-- nothing is told that was not written, or tried that was not planned -/
structure NoMore (x : Seen) (plans : List Plan) : Prop where
  announced : x.applied.length ≤ x.written.length
  attempted : x.attempted.length ≤ (plans.flatMap Plan.writes).length

/-- nothing to write or to alert of -/
def Plan.Idle (plan : Plan) : Prop := plan.writes = [] ∧ plan.alerts = []

/-- a write that fails is the only one of its match; with `stops`, also nothing is left to do for
the matches after it -/
def Unharmed {σ : Type} (store : BlockStore σ) (stops : Bool) : List (Except Exc Plan) → σ → Prop
  | [], _ => True
  | .error _ :: l, s => stops = true ∨ Unharmed store stops l s
  | .ok plan :: l, s => match writeAll store plan.writes s with
    | (true, s') => Unharmed store stops l s'
    | (false, s') => plan.writes.length = 1 ∧
      if stops then ∀ later ∈ planned stops l, later.Idle else Unharmed store stops l s'

section
variable {plan : Plan} {plans : List Plan} {y : Seen} {written : List Attributes}

theorem complete_none : Complete .none plans ↔ ∀ later ∈ plans, later.Idle := by
  constructor
  · intro h later hl
    have hw := List.nil_perm.mp h.attempted
    have ha := List.nil_perm.mp h.alerted
    exact ⟨List.flatMap_eq_nil_iff.mp hw later hl, List.flatMap_eq_nil_iff.mp ha later hl⟩
  · intro h
    refine ⟨.refl _, ?_, ?_⟩
    · rw [List.flatMap_eq_nil_iff.mpr fun later hl => (h later hl).1]
      exact .refl _
    · rw [List.flatMap_eq_nil_iff.mpr fun later hl => (h later hl).2]
      exact .refl _

theorem noMore_none : NoMore .none plans := ⟨Nat.le_refl _, Nat.zero_le _⟩

/-- a plan that was carried out -/
theorem complete_ok :
    Complete (⟨plan.writes, written, written, plan.alerts⟩ ++ y) (plan :: plans) ↔
      Complete y plans := by
  constructor
  · intro h
    exact ⟨(List.perm_append_left_iff _).mp h.announced, (List.perm_append_left_iff _).mp h.attempted,
      (List.perm_append_left_iff _).mp h.alerted⟩
  · intro h
    exact ⟨h.announced.append_left _, h.attempted.append_left _, h.alerted.append_left _⟩

theorem noMore_ok (h : NoMore y plans) :
    NoMore (⟨plan.writes, written, written, plan.alerts⟩ ++ y) (plan :: plans) := by
  have h1 := h.announced
  have h2 := h.attempted
  refine ⟨?_, ?_⟩
  · show (written ++ y.applied).length ≤ (written ++ y.written).length
    rw [List.length_append, List.length_append]
    omega
  · show (plan.writes ++ y.attempted).length ≤ _
    rw [List.flatMap_cons, List.length_append, List.length_append]
    omega

section
variable {n : Nat} (hn : n < plan.writes.length) (hlen : written.length = n)
include hn hlen

theorem noMore_failed (h : NoMore y plans) :
    NoMore (⟨plan.writes.take (n + 1), written, [], []⟩ ++ y) (plan :: plans) := by
  have h1 := h.announced
  have h2 := h.attempted
  refine ⟨?_, ?_⟩
  · show y.applied.length ≤ (written ++ y.written).length
    rw [List.length_append]
    omega
  · show (plan.writes.take (n + 1) ++ y.attempted).length ≤ _
    rw [List.flatMap_cons, List.length_append, List.length_append, List.length_take]
    omega

/-- a plan that broke off: complete only if its one write is what failed -/
theorem complete_failed (ha : plan.alerts = []) (h : NoMore y plans) :
    Complete (⟨plan.writes.take (n + 1), written, [], []⟩ ++ y) (plan :: plans) ↔
      plan.writes.length = 1 ∧ Complete y plans := by
  have h1 := h.announced
  have h2 := h.attempted
  constructor
  · intro hc
    have hp := hc.announced.length_eq
    have hq := hc.attempted.length_eq
    replace hp : y.applied.length = (written ++ y.written).length := hp
    replace hq : (plan.writes.take (n + 1) ++ y.attempted).length
      = (plan.writes ++ plans.flatMap Plan.writes).length := hq
    rw [List.length_append] at hp
    rw [List.length_append, List.length_append, List.length_take] at hq
    obtain rfl : n = 0 := by omega
    have hone : plan.writes.length = 1 := by omega
    obtain rfl := List.length_eq_zero_iff.mp hlen
    have htake : plan.writes.take (0 + 1) = plan.writes := List.take_of_length_le (by omega)
    rw [htake] at hc
    refine ⟨hone, hc.announced, (List.perm_append_left_iff _).mp hc.attempted, ?_⟩
    have hl := hc.alerted
    rw [List.flatMap_cons, ha] at hl
    exact hl
  · rintro ⟨hone, hc⟩
    obtain rfl : n = 0 := by omega
    obtain rfl := List.length_eq_zero_iff.mp hlen
    rw [List.take_of_length_le (by omega : plan.writes.length ≤ 0 + 1)]
    refine ⟨hc.announced, hc.attempted.append_left _, ?_⟩
    rw [List.flatMap_cons, ha]
    exact hc.alerted

end
end

/-! ## the loops over the matches -/

section
variable {Response σ : Type} {site : Site Response σ} {py : Interp}

/-- from `s`, `p` ends whatever happens, and its trail is complete exactly when no failed write of
the plans suppresses anything -/
def Accounts (site : Site Response σ) (py : Interp) (schemaVersion : Str) (stops : Bool)
    (plans : List (Except Exc Plan)) (p : Routine Response Unit) (s : σ) : Prop :=
  ∃ t r s', Runs site.handler p s t r s' ∧
    NoMore (seen py.toBuiltins schemaVersion t) (planned stops plans) ∧
    (Complete (seen py.toBuiltins schemaVersion t) (planned stops plans) ↔
      Unharmed site.store stops plans s)

theorem accounts_done {schemaVersion : Str} {stops : Bool} (r : Except Exc Unit) (s : σ) :
    Accounts site py schemaVersion stops [] (.done r) s :=
  ⟨[], r, s, .done r s, noMore_none, iff_of_true (complete_none.mpr nofun) trivial⟩

section
variable {e : Enforcer} {m : RuleMatch} {summary : Summary} {plan : Plan} {s : σ}
  {rest : Routine Response Unit} {plans : List (Except Exc Plan)}

/-- a match that raises ends the loop -/
theorem accounts_raised {x : Exc} (hp : planOf py e m summary = .error x) :
    Accounts site py e.schemaVersion true (planOf py e m summary :: plans)
      (announce py e m summary >>= fun _ => rest) s := by
  rw [hp]
  exact ⟨[], _, s, (runs_announce_error hp).bind_error, noMore_none,
    iff_of_true (complete_none.mpr nofun) (.inl rfl)⟩

/-- a match whose writes all return -/
theorem accounts_ok {stops : Bool} {s' : σ} (hp : planOf py e m summary = .ok plan)
    (hw : writeAll site.store plan.writes s = (true, s')) {q : Routine Response Unit}
    (hq : ∀ t, Runs site.handler (announce py e m summary) s t (.ok ()) s' →
      Runs site.handler q s t (.ok ()) s')
    (hrest : Accounts site py e.schemaVersion stops plans rest s') :
    Accounts site py e.schemaVersion stops (planOf py e m summary :: plans)
      (q >>= fun _ => rest) s := by
  obtain ⟨t, written, hrun, hseen⟩ := runs_announce_ok hp hw
  obtain ⟨t', r, s'', hrun', hno, hiff⟩ := hrest
  refine ⟨t ++ t', r, s'', (hq t hrun).bind hrun', ?_, ?_⟩
  · rw [seen_append, hseen, hp]
    exact noMore_ok hno
  · rw [seen_append, hseen, hp, planned, complete_ok, Unharmed, hw]
    exact hiff

/-- a match with a write that fails, in a loop that stops there -/
theorem accounts_failed {s' : σ} (hp : planOf py e m summary = .ok plan)
    (hw : writeAll site.store plan.writes s = (false, s')) :
    Accounts site py e.schemaVersion true (planOf py e m summary :: plans)
      (announce py e m summary >>= fun _ => rest) s := by
  obtain ⟨t, x, n, written, hrun, hn, hlen, ha, hseen⟩ := runs_announce_failed hp hw
  refine ⟨t, _, s', hrun.bind_error, ?_, ?_⟩
  · rw [hseen, hp, ← Seen.append_none (Seen.mk _ _ _ _)]
    exact noMore_failed hn hlen noMore_none
  · rw [hseen, hp, ← Seen.append_none (Seen.mk _ _ _ _), planned,
      complete_failed hn hlen ha noMore_none, complete_none, Unharmed, hw]
    rfl

variable {q : Routine Response Unit}

/-- a match that raises, in a loop that goes on -/
theorem accounts_skipped {x : Exc} (hp : planOf py e m summary = .error x)
    (hq : Runs site.handler q s [] (.ok ()) s)
    (hrest : Accounts site py e.schemaVersion false plans rest s) :
    Accounts site py e.schemaVersion false (planOf py e m summary :: plans)
      (q >>= fun _ => rest) s := by
  obtain ⟨t, r, s', hrun, hno, hiff⟩ := hrest
  rw [hp]
  refine ⟨t, r, s', hq.bind hrun, hno, hiff.trans ?_⟩
  rw [Unharmed]
  exact ⟨.inr, fun h => h.elim (fun h => absurd h Bool.false_ne_true) id⟩

/-- a match with a write that fails, in a loop that goes on -/
theorem accounts_passed {s' : σ} (hp : planOf py e m summary = .ok plan)
    (hw : writeAll site.store plan.writes s = (false, s'))
    (hq : ∀ t x, Runs site.handler (announce py e m summary) s t (.error x) s' →
      Runs site.handler q s t (.ok ()) s')
    (hrest : Accounts site py e.schemaVersion false plans rest s') :
    Accounts site py e.schemaVersion false (planOf py e m summary :: plans)
      (q >>= fun _ => rest) s := by
  obtain ⟨t, x, n, written, hrun, hn, hlen, ha, hseen⟩ := runs_announce_failed hp hw
  obtain ⟨t', r, s'', hrun', hno, hiff⟩ := hrest
  refine ⟨t ++ t', r, s'', (hq t x hrun).bind hrun', ?_, ?_⟩
  · rw [seen_append, hseen, hp]
    exact noMore_failed hn hlen hno
  · rw [seen_append, hseen, hp, planned, complete_failed hn hlen ha hno, hiff, Unharmed, hw]
    rfl

end

/-- **the loop of `handle_event`** -/
theorem accounts_applyEach {rt : DjangoEnforcementRuntime} {summary : Summary} :
    ∀ (found : List RuleMatch) (s : σ), Accounts site py rt.schemaVersion true
      (found.map fun m => planOf py rt.enforcer m summary) (rt.applyEach py summary found) s
  | [], s => accounts_done _ s
  | m :: found, s => by
    have hstep : (rt.applyEach py summary (m :: found) : Routine Response Unit)
        = announce py rt.enforcer m summary >>= fun _ => rt.applyEach py summary found :=
      (bind_bind _ _ _).symm
    rw [hstep]
    cases hp : planOf py rt.enforcer m summary with
    | error x =>
      rw [List.map_cons]
      exact accounts_raised hp
    | ok plan =>
      rcases hw : writeAll site.store plan.writes s with ⟨ok, s'⟩
      cases ok with
      | true => exact accounts_ok hp hw (fun t h => h) (accounts_applyEach found s')
      | false => exact accounts_failed hp hw

section
variable {rt : DjangoEnforcementRuntime} {m : RuleMatch} {s s' : σ} {t : List (Happening Response)}

/-- `persist` as a sink -/
def persistOne (rt : DjangoEnforcementRuntime) (py : Interp) (m : RuleMatch) :
    Routine Response Unit :=
  (rt.enforcer.persist py m).catchWith fun _ => pure ()

theorem runs_persistOne_ok
    (h : Runs site.handler (announce py rt.enforcer m (Enforcer.matchSummary m)) s t (.ok ()) s') :
    Runs site.handler (persistOne rt py m) s t (.ok ()) s' :=
  Runs.uncaught (Runs.uncaught h)

theorem runs_persistOne_error {x : Exc}
    (h : Runs site.handler (announce py rt.enforcer m (Enforcer.matchSummary m)) s t
      (.error x) s') :
    Runs site.handler (persistOne rt py m) s t (.ok ()) s' :=
  Runs.uncaught (Runs.handled h rfl)

end

/-- **the loop of the sink** -/
theorem accounts_persistEach {rt : DjangoEnforcementRuntime} :
    ∀ (found : List RuleMatch) (s : σ), Accounts site py rt.schemaVersion false
      (found.map fun m => planOf py rt.enforcer m (Enforcer.matchSummary m))
      (RuleEngine.persistEach (rt.enforcer.persist py) found) s
  | [], s => accounts_done _ s
  | m :: found, s => by
    show Accounts site py rt.schemaVersion false _
      (persistOne rt py m >>= fun _ => RuleEngine.persistEach (rt.enforcer.persist py) found) s
    rw [List.map_cons]
    cases hp : planOf py rt.enforcer m (Enforcer.matchSummary m) with
    | error x =>
      rw [← hp]
      exact accounts_skipped hp (runs_persistOne_error (runs_announce_error hp))
        (accounts_persistEach found s)
    | ok plan =>
      rw [← hp]
      rcases hw : writeAll site.store plan.writes s with ⟨ok, s'⟩
      cases ok with
      | true => exact accounts_ok hp hw (fun t => runs_persistOne_ok) (accounts_persistEach found s')
      | false =>
        exact accounts_passed hp hw (fun t x => runs_persistOne_error) (accounts_persistEach found s')

end

/-! ## the calls that write nothing and tell of nothing -/

/-- no write and no event -/
def Silent {Response : Type} (β : Type) : Eff Response β → Prop
  | .block _ _ _ => False
  | .emit _ _ => False
  | _ => True

theorem silent_rules {Response : Type} :
    AllowsRules (Silent : (β : Type) → Eff Response β → Prop) where
  clock := trivial
  evaluate _ _ _ := trivial
  attributes _ _ _ := trivial
  append _ _ _ := trivial

section
variable {Response σ α : Type} {site : Site Response σ} {b : Builtins} {schemaVersion : Str}

theorem seen_silent : ∀ {t : List (Happening Response)}, (∀ x ∈ t, Silent _ x.cmd) →
    seen b schemaVersion t = .none
  | [], _ => rfl
  | x :: t, h => by
    have hx : seen b schemaVersion [x] = .none := by
      obtain ⟨c, r⟩ := x
      have hc := h _ List.mem_cons_self
      cases c <;> first | rfl | exact hc.elim
    show seen b schemaVersion ([x] ++ t) = _
    rw [seen_append, hx, seen_silent fun y hy => h y (List.mem_cons_of_mem x hy)]
    rfl

theorem seen_only {p : Routine Response α} (hp : Only Silent p) (s : σ) :
    seen b schemaVersion (trace site.handler p s) = .none :=
  seen_silent fun _ hx => hp.of_trace hx

end

/-- `evaluate`, up to the matches -/
def RuleEngine.detect {Response : Type} (engine : RuleEngine Response) (event : RuleEvent) :
    Routine Response (List RuleMatch) :=
  if isInternalEvent event then pure []
  else (engine.buildEvaluationContext event).attempt fun r => match r with
    | .error e => if engine.failOpen then pure [] else Prog.throw e
    | .ok ctx => do
      let r ← engine.runRules ctx false engine.rules [] []
      return r.1

section
variable {Response σ : Type} {site : Site Response σ} {b : Builtins} {schemaVersion : Str}
  {engine : RuleEngine Response} {sink : RuleMatch → Routine Response Unit} {frames : Nat}
  {event : RuleEvent} {s : σ}

/-- what is left of an evaluation after the sinks -/
def RuleEngine.remember (engine : RuleEngine Response) (frames : Nat) (ctx : EvaluationContext)
    (found : List RuleMatch) (attrs : RuleAttrs) : Routine Response (List RuleMatch) := do
  let summary ← ofExcept (mergeHistoryAttributes frames attrs ctx.summary)
  engine.appendHistory summary ctx.scopeKeys ctx.now
  return found

theorem only_remember (ctx : EvaluationContext) (found : List RuleMatch) (attrs : RuleAttrs) :
    Only Silent (engine.remember frames ctx found attrs) :=
  Only.ofExcept fun _ _ => Only.bind (only_appendHistory silent_rules _ _ _) fun _ => only_done _

/-- the sink over the matches, then the rest -/
theorem runs_evaluateIn_sink (hs : engine.resultSinks = [sink]) {ctx : EvaluationContext}
    {found : List RuleMatch} {attrs : RuleAttrs} {s₁ s₂ : σ} {tB t : List (Happening Response)}
    {r : Except Exc Unit} (hB : Runs site.handler (engine.runRules ctx false engine.rules [] []) s tB
      (.ok (found, attrs)) s₁)
    (hp : Runs site.handler (RuleEngine.persistEach sink found) s₁ t r s₂) :
    ∃ t' r' s₃, Runs site.handler (engine.evaluateIn frames ctx false) s (tB ++ t') r' s₃ ∧
      seen b schemaVersion t' = seen b schemaVersion t := by
  unfold RuleEngine.evaluateIn
  rw [hs]
  cases r with
  | error x => exact ⟨t, _, s₂, hB.bind hp.bind_error.bind_error, rfl⟩
  | ok u =>
    have hrest := runs_self site.handler (engine.remember frames ctx found attrs) s₂
    have hsink : Runs site.handler (RuleEngine.persistMatches found [sink]) s₁ t (.ok ()) s₂ := by
      have h := hp.bind (f := fun _ => pure ()) (.done (.ok ()) s₂)
      rw [List.append_nil] at h
      exact h
    refine ⟨_, _, _, hB.bind (hsink.bind hrest), ?_⟩
    rw [seen_append, seen_only (only_remember ctx found attrs), Seen.append_none]

/-- with a sink, an evaluation does what the sink does for the matches, besides silent calls -/
theorem runs_evaluate_sink (hs : engine.resultSinks = [sink]) {r : Except Exc (List RuleMatch)}
    {s₁ : σ} (hd : exec site.handler (engine.detect event) s = (r, s₁))
    {t : List (Happening Response)} {r' : Except Exc Unit} {s₂ : σ}
    (hp : Runs site.handler (RuleEngine.persistEach sink (r.toOption.getD [])) s₁ t r' s₂) :
    ∃ t' r'' s₃, Runs site.handler (engine.evaluate frames event false) s t' r'' s₃ ∧
      seen b schemaVersion t' = seen b schemaVersion t := by
  unfold RuleEngine.detect at hd
  unfold RuleEngine.evaluate
  by_cases hi : RuleEngine.isInternalEvent event = true
  · rw [if_pos hi] at hd ⊢
    obtain ⟨rfl, rfl⟩ := Prod.mk.inj hd
    obtain rfl := hp.trace_eq
    exact ⟨[], _, s, .done _ s, rfl⟩
  · rw [if_neg hi] at hd ⊢
    have hA := runs_self site.handler (engine.buildEvaluationContext event) s
    have hsilent : seen b schemaVersion
        (trace site.handler (engine.buildEvaluationContext event) s) = .none :=
      seen_only (only_buildEvaluationContext silent_rules event) s
    rw [exec_attempt] at hd
    rcases hx : exec site.handler (engine.buildEvaluationContext event) s with ⟨rA, sA⟩
    rw [hx] at hd hA
    cases rA with
    | error x =>
      -- no context: nothing is found, nothing is done
      have hnil : r.toOption.getD [] = [] := by
        dsimp only at hd
        split at hd
        · obtain ⟨rfl, -⟩ := Prod.mk.inj hd
          rfl
        · obtain ⟨rfl, -⟩ := Prod.mk.inj hd
          rfl
      rw [hnil] at hp
      obtain rfl := hp.trace_eq
      have hrest := runs_self site.handler
        (if engine.failOpen = true then pure [] else Prog.throw x : Routine Response (List RuleMatch))
        sA
      refine ⟨_, _, _, hA.attempt hrest, ?_⟩
      rw [seen_append, hsilent]
      split <;> rfl
    | ok ctx =>
      have hB := runs_self site.handler (engine.runRules ctx false engine.rules [] []) sA
      have hquiet : seen b schemaVersion
          (trace site.handler (engine.runRules ctx false engine.rules [] []) sA) = .none :=
        seen_only (only_runRules silent_rules _ _ _) sA
      replace hd : exec site.handler (engine.runRules ctx false engine.rules [] [] >>=
        fun r => pure r.1) sA = (r, s₁) := hd
      rw [exec_bind] at hd
      rcases hy : exec site.handler (engine.runRules ctx false engine.rules [] []) sA with ⟨rB, sB⟩
      rw [hy] at hd hB
      cases rB with
      | error x =>
        obtain ⟨rfl, rfl⟩ := Prod.mk.inj hd
        obtain rfl := hp.trace_eq
        refine ⟨_, _, _, hA.attempt (Runs.bind_error hB), ?_⟩
        rw [seen_append, hsilent, hquiet]
        rfl
      | ok p =>
        obtain ⟨found, attrs⟩ := p
        obtain ⟨rfl, rfl⟩ := Prod.mk.inj hd
        obtain ⟨t', r₃, s₃, hrun, hseen⟩ := runs_evaluateIn_sink hs hB hp
        refine ⟨_, r₃, s₃, hA.attempt hrun, ?_⟩
        rw [seen_append, seen_append, hsilent, hquiet, hseen]
        rfl

end

/-! ## an event -/

namespace DjangoEnforcementRuntime

section
variable {Response σ : Type} (py : Interp) (rt : DjangoEnforcementRuntime) (event : AuditEvent)

/-- `handle_event`, up to the matches that are to be enforced -/
def matchesFor : Routine Response (List RuleMatch) :=
  let ruleEvent := RuleEvent.fromEvent py.toBuiltins event
  if rt.config.applyViaSink then (rt.engine py).detect ruleEvent
  else (rt.engine py).evaluate py.frames ruleEvent false

/-- the plans of the matches; a sink is given the match alone -/
def plansFor (found : List RuleMatch) : List (Except Exc Plan) :=
  found.map fun m => planOf py rt.enforcer m (if rt.config.applyViaSink then
    Enforcer.matchSummary m else (RuleEvent.fromEvent py.toBuiltins event).toDict)

/-- whether a match that raises ends the loop -/
def stops : Bool := !rt.config.applyViaSink

variable {py rt event} {site : Site Response σ}

theorem engine_sinks : (rt.engine py : RuleEngine Response).resultSinks
    = if rt.config.applyViaSink then [rt.enforcer.persist py] else [] := rfl

/-- with a sink, nothing comes after the evaluation -/
theorem trace_handleEvent_sink (hv : rt.config.applyViaSink = true) {s s' : σ}
    {t : List (Happening Response)} {r : Except Exc (List RuleMatch)}
    (h : Runs site.handler ((rt.engine py).evaluate py.frames
      (RuleEvent.fromEvent py.toBuiltins event) false) s t r s') :
    trace site.handler (rt.handleEvent py event) s = t := by
  unfold handleEvent
  dsimp only
  cases r with
  | error x => exact h.bind_error.trace_eq
  | ok found =>
    have hrest : Runs site.handler (if rt.config.applyViaSink = true then pure () else
        rt.applyEach py (RuleEvent.fromEvent py.toBuiltins event).toDict found) s' [] (.ok ()) s' := by
      rw [if_pos hv]
      exact .done (.ok ()) s'
    rw [← List.append_nil t]
    exact (h.bind hrest).trace_eq

theorem only_evaluate_silent (hv : ¬ rt.config.applyViaSink = true) :
    Only Silent ((rt.engine py).evaluate py.frames (RuleEvent.fromEvent py.toBuiltins event) false :
      Routine Response (List RuleMatch)) := by
  refine only_evaluate silent_rules fun sink hsink => ?_
  rw [engine_sinks, if_neg hv] at hsink
  exact absurd hsink List.not_mem_nil

/-- **an event**: the trail is complete exactly when the writes that fail suppress nothing -/
theorem complete_handleEvent (s : σ) {r : Except Exc (List RuleMatch)} {s₁ : σ}
    (hd : exec site.handler (rt.matchesFor py event) s = (r, s₁)) :
    Complete (seen py.toBuiltins rt.schemaVersion (trace site.handler (rt.handleEvent py event) s))
        (planned rt.stops (rt.plansFor py event (r.toOption.getD []))) ↔
      Unharmed site.store rt.stops (rt.plansFor py event (r.toOption.getD [])) s₁ := by
  unfold matchesFor at hd
  unfold stops plansFor
  by_cases hv : rt.config.applyViaSink = true
  · simp only [hv, if_true, Bool.not_true] at hd ⊢
    obtain ⟨t, r', s₂, hrun, -, hiff⟩ := @accounts_persistEach Response σ site py rt
      (r.toOption.getD []) s₁
    obtain ⟨t', r'', s₃, hrun', hseen⟩ := @runs_evaluate_sink Response σ site py.toBuiltins
      rt.schemaVersion (rt.engine py) (rt.enforcer.persist py) py.frames _ s
      (engine_sinks.trans (if_pos hv)) r s₁ hd t r' s₂ hrun
    rw [trace_handleEvent_sink hv hrun', hseen]
    exact hiff
  · simp only [hv, if_false, Bool.false_eq_true, Bool.not_false] at hd ⊢
    have hsilent := @seen_only Response σ _ site py.toBuiltins rt.schemaVersion _
      (@only_evaluate_silent Response py rt event hv) s
    have hA : Runs site.handler _ s _ r s₁ := ⟨hd, rfl⟩
    cases r with
    | error x =>
      have h : trace site.handler (rt.handleEvent py event) s = _ := hA.bind_error.trace_eq
      rw [h, hsilent]
      exact iff_of_true (complete_none.mpr nofun) trivial
    | ok found =>
      obtain ⟨t, r', s₂, hrun, -, hiff⟩ := @accounts_applyEach Response σ site py rt
        (RuleEvent.fromEvent py.toBuiltins event).toDict found s₁
      have hrest : Runs site.handler (if rt.config.applyViaSink = true then pure () else
          rt.applyEach py (RuleEvent.fromEvent py.toBuiltins event).toDict found) s₁ t r' s₂ := by
        rw [if_neg hv]
        exact hrun
      have h : trace site.handler (rt.handleEvent py event) s = _ ++ t := (hA.bind hrest).trace_eq
      rw [h, seen_append, hsilent]
      exact hiff

end

end DjangoEnforcementRuntime

end SecAudit
