import Mathlib.Algebra.Order.Ring.Cast
import SecAudit.Rules.Counters
import SecAudit.Rules.Live
import SecAudit.Rules.Readers

/-!
# Failed logins

* `BruteForceLoginRule`, `LoginThrottleRule`  count the failed logins of an address, and throttle
                    its requests;
* `LoginSite`       both rules around one store of counters, everything else being as it may;
* `openingAt`       when the window opened that is open at a time;
* `live_failures`   the counter of an address after a run;
* `throttles_iff`   a request is throttled exactly when enough logins failed in the open window.
-/

set_option linter.unusedVariables false

namespace SecAudit
open Py Prog

/-! ## the rules -/

/-- `part.replace(':', '_')` -/
def plainPart (part : Str) : Str := part.map fun c => if c = cp ':' then cp '_' else c

/-- `_state_key` -/
def stateKey (parts : List Str) : Str := (str ":").intercalate (parts.map plainPart)

/-- `_login_failures_key` -/
def loginFailuresKey (srcip : Str) : Str :=
  stateKey [str "rules", str "brute_force_login", str "failures", srcip]

def LOGIN_FAILED : Str := str "auth.login.failed"

def LOGIN_SUCCESS : Str := str "auth.login.success"

def REQUEST_PRE : Str := str "audit.http.request.pre"

structure BruteForceLoginRule where
  threshold : Int := 5
  windowSeconds : Int := 300

structure LoginThrottleRule where
  threshold : Int := 5
  /-- `pattern.search` of each of the paths -/
  paths : List (Str → Bool)

section
variable (b : Builtins)

namespace BruteForceLoginRule

def rule : Rule where
  name := str "brute_force_login"
  eventTypes := some [LOGIN_FAILED, LOGIN_SUCCESS]

/-- `event.actor.name or str(event.field('username') or '')` -/
def username (event : RuleEvent) : Str :=
  (orNone (event.actor b).name).getD
    (strOf b (orElse b (event.field (str "username")) (.string [])))

variable (self : BruteForceLoginRule)

def evaluate (time : ℚ) (event : RuleEvent) (ctx : RuleContext) (counters : FixedWindows) :
    Outcome × FixedWindows :=
  let srcip := (event.source b).address
  if srcip = [] then (.none, counters)
  else if event.eventType = LOGIN_SUCCESS then
    (.none, Function.update counters (loginFailuresKey srcip) none)
  else
    let r := FixedWindows.incr time (loginFailuresKey srcip) 1 (some self.windowSeconds) counters
    if r.1 < self.threshold then (.none, r.2)
    else (.found (makeMatch b rule.name 8 ctx.now (str "Repeated login failures detected") event
      [str "auth", str "bruteforce"] [(.str (str "failure_count"), .int r.1),
        (.str (str "username"), .str (username b event))] none none), r.2)

end BruteForceLoginRule

namespace LoginThrottleRule

def rule : Rule where
  name := str "login_throttle"
  safeForEnforcement := true
  eventTypes := some [REQUEST_PRE]

variable (self : LoginThrottleRule)

/-- the path is one that is monitored -/
def monitors (event : RuleEvent) : Bool :=
  self.paths.isEmpty || self.paths.any fun search => search (event.url b).path

def evaluate (time : ℚ) (event : RuleEvent) (ctx : RuleContext) (counters : FixedWindows) :
    Outcome :=
  let srcip := (event.source b).address
  if !self.monitors b event then .none
  else if srcip = [] then .none
  else
    let count := FixedWindows.getInt time (loginFailuresKey srcip) 0 counters
    if count < self.threshold then .none
    else .found (makeMatch b rule.name 8 ctx.now
      (str "Login temporarily throttled after repeated failures") event
      [str "auth", str "throttle"] [(.str (str "failure_count"), .int count)]
      (some (str "block")) none)

end LoginThrottleRule

end

/-! ## the site -/

/-- the counters, what their clock shows, and the state of everything else -/
structure LoginState (τ : Type) where
  counters : FixedWindows
  time : ℚ
  rest : τ

/-- the two rules, the counters they share, and everything else -/
structure LoginSite (Response τ : Type) where
  b : Builtins
  brute : BruteForceLoginRule
  throttle : LoginThrottleRule
  around : Site Response τ

namespace LoginSite

section
variable {Response τ : Type} (l : LoginSite Response τ)

/-- a call that is answered by everything else -/
def outside {α : Type} (call : τ → α × τ) (s : LoginState τ) : α × LoginState τ :=
  ((call s.rest).1, { s with rest := (call s.rest).2 })

def site : Site Response (LoginState τ) where
  clock s := l.around.clock s.rest
  timeNs s := l.around.timeNs s.rest
  ruleEvaluate rule event ctx s :=
    if rule = BruteForceLoginRule.rule then
      let r := l.brute.evaluate l.b s.time event ctx s.counters
      (.ok r.1, { s with counters := r.2 })
    else if rule = LoginThrottleRule.rule then
      (.ok (l.throttle.evaluate l.b s.time event ctx s.counters), s)
    else outside (l.around.ruleEvaluate rule event ctx) s
  ruleAttributes rule event ctx s :=
    if rule = BruteForceLoginRule.rule ∨ rule = LoginThrottleRule.rule then (.ok .none, s)
    else outside (l.around.ruleAttributes rule event ctx) s
  sink i m s := outside (l.around.sink i m) s
  append summary scopeKeys recordedAt s :=
    outside (l.around.append summary scopeKeys recordedAt) s
  store := {
    block := fun scope a ttl s => outside (l.around.store.block scope a ttl) s
    unblock := fun scope reason revokedBy s =>
      outside (l.around.store.unblock scope reason revokedBy) s
    firstActive := fun scopes s => outside (l.around.store.firstActive scopes) s }
  getResponse s := outside l.around.getResponse s

end

end LoginSite

/-- an evaluation, with the time the counters see -/
structure Evaluation where
  time : ℚ
  event : RuleEvent
  enforcementOnly : Bool

/-- the calls that are not on rules -/
def NoRule {Response : Type} : (β : Type) → Eff Response β → Prop
  | _, .ruleEvaluate _ _ _ => False
  | _, .ruleAttributes _ _ _ => False
  | _, _ => True

namespace LoginSite

section
variable {Response τ : Type} (l : LoginSite Response τ) (engine : RuleEngine Response)
  (frames : Nat)

/-- one evaluation -/
def run (s : LoginState τ) (x : Evaluation) : Except Exc (List RuleMatch) × LoginState τ :=
  exec l.site.handler (engine.evaluate frames x.event x.enforcementOnly) { s with time := x.time }

/-- the state after a run -/
def after (s : LoginState τ) (xs : List Evaluation) : LoginState τ :=
  xs.foldl (fun s x => (l.run engine frames s x).2) s

end

end LoginSite

/-! ## the failures of an address -/

/-- `x` tells of a login from `a`, and is more than a look ahead -/
def Evaluation.isLogin (b : Builtins) (a : Str) (x : Evaluation) : Bool :=
  !x.enforcementOnly && decide ((x.event.source b).address = a) &&
    decide (x.event.eventType ∈ [LOGIN_FAILED, LOGIN_SUCCESS])

/-- the logins from `a`, the latest first -/
def loginsOf (b : Builtins) (a : Str) (xs : List Evaluation) : List Evaluation :=
  (xs.filter (Evaluation.isLogin b a)).reverse

/-- the times of the failed logins from `a`, the latest first -/
def failuresOf (b : Builtins) (a : Str) (xs : List Evaluation) : List ℚ :=
  ((loginsOf b a xs).filter fun x => decide (x.event.eventType = LOGIN_FAILED)).map Evaluation.time

/-- those since the last successful login -/
def recentFailures (b : Builtins) (a : Str) (xs : List Evaluation) : List ℚ :=
  ((loginsOf b a xs).takeWhile fun x => decide (x.event.eventType = LOGIN_FAILED)).map
    Evaluation.time

/-- when the window opened that is open at `now`, if one is: a failure that no earlier window covers
opens one; the latest failure is the first -/
def openingAt (window : Int) (now : ℚ) : List ℚ → Option ℚ
  | [] => none
  | t :: earlier =>
    let opened := (openingAt window t earlier).getD t
    if now < opened + window then some opened else none

/-- how many of `recent` came since the window opened that the failures `all` have open at `now` -/
def failuresSince (window : Int) (now : ℚ) (all recent : List ℚ) : Nat :=
  match openingAt window now all with
  | none => 0
  | some opened => recent.countP fun t => decide (opened ≤ t)

/-! ## windows of failures -/

section
variable {window : Int} {now t o : ℚ} {l : List ℚ}

theorem openingAt_mem : ∀ {l : List ℚ} {now o : ℚ}, openingAt window now l = some o → o ∈ l
  | [], _, _, h => by cases h
  | t :: l, now, o, h => by
    unfold openingAt at h
    dsimp only at h
    split at h
    · obtain rfl := Option.some.inj h
      rcases ht : openingAt window t l with _ | o'
      · exact List.mem_cons_self
      · exact List.mem_cons_of_mem t (openingAt_mem ht)
    · cases h

theorem openingAt_open (h : openingAt window now l = some o) : now < o + window := by
  cases l with
  | nil => cases h
  | cons t l =>
    unfold openingAt at h
    dsimp only at h
    split at h
    · rename_i hlt
      exact Option.some.inj h ▸ hlt
    · cases h

/-- a failure is covered at its own time -/
theorem openingAt_own (hw : 0 < window) : openingAt window t (t :: l) ≠ none := by
  unfold openingAt
  dsimp only
  rw [if_pos]
  · exact Option.some_ne_none _
  · rcases ht : openingAt window t l with _ | o
    · exact lt_add_of_pos_right t (Int.cast_pos.mpr hw)
    · exact openingAt_open ht

/-- the counter that failures leave -/
def counterOf (window : Int) (now : ℚ) (l : List ℚ) : Option (Window (Option Int) ℚ) :=
  (openingAt window now l).map fun opened =>
    ⟨some (l.countP fun t => decide (opened ≤ t) : Nat), some (opened + window)⟩

/-- where a failure opens a window none is as late -/
theorem none_as_late (hw : 0 < window) (hsorted : (t :: l).Pairwise fun x y => y ≤ x)
    (hnone : openingAt window t l = none) : l.countP (fun x => decide (t ≤ x)) = 0 := by
  rw [List.countP_eq_zero]
  intro x hx hle
  replace hle := of_decide_eq_true hle
  obtain ⟨ht, hl⟩ := List.pairwise_cons.mp hsorted
  cases l with
  | nil => exact List.not_mem_nil hx
  | cons y l =>
    have hyx : x ≤ y := by
      rcases List.mem_cons.mp hx with rfl | hx
      · exact le_rfl
      · exact (List.pairwise_cons.mp hl).1 x hx
    obtain rfl : y = t := le_antisymm (ht y List.mem_cons_self) (hle.trans hyx)
    exact openingAt_own hw hnone

variable {m : FixedWindows} {k : Str}

/-- **a failure is counted** -/
theorem live_incr (hm : Windows.live t m k = counterOf window t l)
    (hsorted : (t :: l).Pairwise fun x y => y ≤ x) (hnow : t ≤ now) :
    Windows.live now (FixedWindows.incr t k 1 (some window) m).2 k
      = counterOf window now (t :: l) := by
  unfold FixedWindows.incr
  rw [hm]
  unfold counterOf
  rcases ho : openingAt window t l with _ | o
  · show (Function.update m k (some ⟨some 1, some (t + window)⟩) k).filter _ = _
    rw [Function.update_self, Option.filter_some]
    unfold openingAt
    dsimp only
    rw [ho, Option.getD_none]
    by_cases hlt : now < t + window
    · have hw : 0 < window := by
        have : t < t + window := hnow.trans_lt hlt
        exact Int.cast_pos.mp (pos_of_lt_add_right this)
      rw [if_pos hlt, if_pos (by simpa [Window.LiveAt] using hlt), Option.map_some,
        List.countP_cons, none_as_late hw hsorted ho, if_pos (decide_eq_true le_rfl)]
      rfl
    · rw [if_neg hlt, if_neg (by simpa [Window.LiveAt] using hlt)]
      rfl
  · have hot : o ≤ t := (List.pairwise_cons.mp hsorted).1 o (openingAt_mem ho)
    show (Function.update m k (some ⟨some (((l.countP fun t => decide (o ≤ t) : Nat) : Int) + 1),
      some (o + window)⟩) k).filter _ = _
    rw [Function.update_self, Option.filter_some]
    unfold openingAt
    dsimp only
    rw [ho, Option.getD_some]
    by_cases hlt : now < o + window
    · rw [if_pos hlt, if_pos (by simpa [Window.LiveAt] using hlt), Option.map_some,
        List.countP_cons, if_pos (decide_eq_true hot)]
      rfl
    · rw [if_neg hlt, if_neg (by simpa [Window.LiveAt] using hlt)]
      rfl

theorem getInt_counterOf (hm : Windows.live now m k = counterOf window now l) :
    FixedWindows.getInt now k 0 m = failuresSince window now l l := by
  unfold FixedWindows.getInt failuresSince
  rw [hm]
  unfold counterOf
  rcases openingAt window now l with _ | o
  · rfl
  · rfl

end

/-! ## keys -/

theorem plainPart_injective : ∀ {p q : Str}, cp '_' ∉ p → cp '_' ∉ q →
    plainPart p = plainPart q → p = q
  | [], [], _, _, _ => rfl
  | [], _ :: _, _, _, h => by cases h
  | _ :: _, [], _, _, h => by cases h
  | c :: p, d :: q, hp, hq, h => by
    rw [List.mem_cons, not_or] at hp hq
    obtain ⟨hc, hrest⟩ := List.cons.inj h
    dsimp only at hc
    congr 1
    · by_cases h1 : c = cp ':'
      · rw [if_pos h1] at hc
        by_cases h2 : d = cp ':'
        · rw [h1, h2]
        · rw [if_neg h2] at hc
          exact absurd hc hq.1
      · rw [if_neg h1] at hc
        by_cases h2 : d = cp ':'
        · rw [if_pos h2] at hc
          exact absurd hc.symm hp.1
        · rwa [if_neg h2] at hc
    · exact plainPart_injective hp.2 hq.2 hrest

/-- addresses without an underscore have counters of their own -/
theorem loginFailuresKey_injective {p q : Str} (hp : cp '_' ∉ p) (hq : cp '_' ∉ q)
    (h : loginFailuresKey p = loginFailuresKey q) : p = q := by
  refine plainPart_injective hp hq ?_
  have hkey : ∀ r, loginFailuresKey r
      = str "rules:brute_force_login:failures:" ++ (plainPart r ++ []) := fun r => rfl
  rw [hkey, hkey, List.append_nil, List.append_nil] at h
  exact List.append_cancel_left h

/-! ## one evaluation -/

/-- an engine that holds the two rules: its sinks do not evaluate rules, and its extractors do not
raise -/
structure HoldsLogins {Response : Type} (engine : RuleEngine Response) : Prop where
  rules : engine.rules.Perm [BruteForceLoginRule.rule, LoginThrottleRule.rule]
  sinks : ∀ sink ∈ engine.resultSinks, ∀ m, Only NoRule (sink m)
  extractors : ∀ summary, ∃ keys, extractScopeKeys summary engine.historyExtractors [] = .ok keys

section
variable {Response τ : Type} {l : LoginSite Response τ} {engine : RuleEngine Response}
  {frames : Nat} {s : LoginState τ} {x : Evaluation}

namespace LoginSite

/-- what is not a rule does not touch the counters -/
theorem handler_counters (β : Type) (c : Eff Response β) (s : LoginState τ) (h : NoRule β c) :
    (l.site.handler β c s).2.counters = s.counters := by
  cases c <;> first | exact h.elim | rfl

theorem conclude_counters (h : HoldsLogins engine) (ctx : EvaluationContext) (eo : Bool)
    (found : List RuleMatch) (summary : Summary) (s : LoginState τ) :
    (exec l.site.handler (engine.conclude ctx eo found summary) s).2.counters = s.counters := by
  have honly : Only NoRule (engine.conclude ctx eo found summary) := by
    unfold RuleEngine.conclude
    refine Only.bind (only_persistMatches found h.sinks) fun _ => ?_
    split
    · exact only_done _
    · unfold RuleEngine.appendHistory
      split
      · exact only_done _
      · exact Only.catchWith (only_perform trivial) fun _ => only_done _
  exact @Only.frame _ _ _ _ _ _ _ FixedWindows LoginState.counters honly
    (fun β c s hc => handler_counters β c s hc) s

/-- the context that an event is evaluated in -/
def contextOf (l : LoginSite Response τ) (s : LoginState τ) (event : RuleEvent)
    (summary : Summary) (keys : List ScopeKey) : EvaluationContext :=
  ⟨event, l.site.clock s, summary, keys⟩

/-- an evaluation in which one of the rules applies -/
theorem run_one {rule : Rule} {outcome : RuleContext → Outcome} {m : FixedWindows}
    (h : HoldsLogins engine) (hint : RuleEngine.isInternalEvent x.event = false)
    (happlies : (engine.rules.filter fun rule =>
      RuleEngine.ruleApplies rule x.event x.enforcementOnly) = [rule])
    (hreturns : ∀ ctx, Returns l.site rule x.event ctx { s with time := x.time } (outcome ctx)
      .none { s with time := x.time, counters := m } { s with time := x.time, counters := m }) :
    (∃ ctx, (l.run engine frames s x).1 = .ok (outcome ctx).toOption.toList) ∧
      (l.run engine frames s x).2.counters = m := by
  obtain ⟨summary, hsummary⟩ := createHistorySummary_ok engine.sensitiveKeys engine.valuePatterns
    x.event
  obtain ⟨keys, hkeys⟩ := h.extractors summary
  have hrule : RuleEngine.ruleApplies rule x.event x.enforcementOnly = true := by
    have hmem : rule ∈ engine.rules.filter fun rule =>
        RuleEngine.ruleApplies rule x.event x.enforcementOnly := by
      rw [happlies]
      exact List.mem_cons_self
    exact (List.mem_filter.mp hmem).2
  have hone : exec l.site.handler (engine.runRules
      (contextOf l { s with time := x.time } x.event summary keys) x.enforcementOnly [rule] [] [])
      { s with time := x.time } = _ := exec_runRules_one hrule (hreturns _)
  rw [← happlies] at hone
  have hrun := (congrArg (fun p => exec l.site.handler p _)
    (runRules_filter engine.rules [] [])).trans hone
  unfold run
  rw [exec_evaluate hint hsummary hkeys]
  have hin : exec l.site.handler (engine.evaluateIn frames _ _) _ = _ := exec_evaluateIn hrun rfl
  refine ⟨⟨_, congrArg Prod.fst hin⟩, ?_⟩
  exact (congrArg (fun r => r.2.counters) hin).trans (conclude_counters h _ _ _ _ _)

/-- an evaluation in which none does -/
theorem run_none (h : HoldsLogins engine) (hint : RuleEngine.isInternalEvent x.event = false)
    (happlies : (engine.rules.filter fun rule =>
      RuleEngine.ruleApplies rule x.event x.enforcementOnly) = []) :
    (l.run engine frames s x).2.counters = s.counters := by
  obtain ⟨summary, hsummary⟩ := createHistorySummary_ok engine.sensitiveKeys engine.valuePatterns
    x.event
  obtain ⟨keys, hkeys⟩ := h.extractors summary
  have hnone : exec l.site.handler (engine.runRules
      (contextOf l { s with time := x.time } x.event summary keys) x.enforcementOnly [] [] [])
      { s with time := x.time } = (.ok ([], []), { s with time := x.time }) := rfl
  rw [← happlies] at hnone
  have hrun := (congrArg (fun p => exec l.site.handler p _)
    (runRules_filter engine.rules [] [])).trans hnone
  unfold run
  rw [exec_evaluate hint hsummary hkeys]
  have hin : exec l.site.handler (engine.evaluateIn frames _ _) _ = _ := exec_evaluateIn hrun rfl
  exact (congrArg (fun r => r.2.counters) hin).trans (conclude_counters h _ _ _ _ _)

/-- the rules that apply -/
theorem applies_eq (h : HoldsLogins engine) {p : Rule → Bool} {rules : List Rule}
    (hp : [BruteForceLoginRule.rule, LoginThrottleRule.rule].filter p = rules)
    (hlen : rules.length ≤ 1) : engine.rules.filter p = rules := by
  have hperm := h.rules.filter p
  rw [hp] at hperm
  cases rules with
  | nil => exact List.perm_nil.mp hperm
  | cons rule rules =>
    obtain rfl : rules = [] := List.length_eq_zero_iff.mp (by
      rw [List.length_cons] at hlen
      omega)
    exact List.perm_singleton.mp hperm

theorem internal_of {eventType : Str} (h : eventType ∈ [LOGIN_FAILED, LOGIN_SUCCESS, REQUEST_PRE])
    {event : RuleEvent} (he : event.eventType = eventType) :
    RuleEngine.isInternalEvent event = false := by
  have hall : ∀ t ∈ [LOGIN_FAILED, LOGIN_SUCCESS, REQUEST_PRE],
      (INTERNAL_EVENT_PREFIXES.any fun p => p.isPrefixOf t) = false := by decide
  unfold RuleEngine.isInternalEvent
  rw [he]
  exact hall eventType h

theorem site_brute (event : RuleEvent) (ctx : RuleContext) (s : LoginState τ) :
    l.site.ruleEvaluate BruteForceLoginRule.rule event ctx s
      = (.ok (l.brute.evaluate l.b s.time event ctx s.counters).1,
        { s with counters := (l.brute.evaluate l.b s.time event ctx s.counters).2 }) := by
  unfold site
  dsimp only
  rw [if_pos rfl]

theorem site_throttle (event : RuleEvent) (ctx : RuleContext) (s : LoginState τ) :
    l.site.ruleEvaluate LoginThrottleRule.rule event ctx s
      = (.ok (l.throttle.evaluate l.b s.time event ctx s.counters), s) := by
  unfold site
  dsimp only
  rw [if_neg (by decide), if_pos rfl]

/-- neither rule contributes to the history -/
theorem site_attributes {rule : Rule}
    (h : rule = BruteForceLoginRule.rule ∨ rule = LoginThrottleRule.rule) (event : RuleEvent)
    (ctx : RuleContext) (s : LoginState τ) :
    l.site.ruleAttributes rule event ctx s = (.ok .none, s) := if_pos h

/-- a request is judged by the counter of its address -/
theorem run_pre (h : HoldsLogins engine) (hx : x.event.eventType = REQUEST_PRE) :
    (∃ ctx, (l.run engine frames s x).1 = .ok (l.throttle.evaluate l.b x.time x.event ctx
      s.counters).toOption.toList) ∧ (l.run engine frames s x).2.counters = s.counters := by
  have hproper : ∀ ctx, l.throttle.evaluate l.b x.time x.event ctx s.counters ≠ .other := by
    intro ctx
    unfold LoginThrottleRule.evaluate
    dsimp only
    split
    · exact Outcome.noConfusion
    · split
      · exact Outcome.noConfusion
      · split
        · exact Outcome.noConfusion
        · exact Outcome.noConfusion
  refine @run_one Response τ l engine frames s x LoginThrottleRule.rule _ s.counters h
    (internal_of (by decide) hx) (applies_eq h ?_ le_rfl) fun ctx =>
    ⟨site_throttle _ _ _, site_attributes (.inr rfl) _ _ _, rfl, by decide, hproper ctx⟩
  unfold RuleEngine.ruleApplies
  rw [hx]
  cases x.enforcementOnly <;> decide

/-- the counters after a login -/
def counted (l : LoginSite Response τ) (x : Evaluation) (m : FixedWindows) : FixedWindows :=
  if (x.event.source l.b).address = [] then m
  else if x.event.eventType = LOGIN_SUCCESS then
    Function.update m (loginFailuresKey (x.event.source l.b).address) none
  else (FixedWindows.incr x.time (loginFailuresKey (x.event.source l.b).address) 1
    (some l.brute.windowSeconds) m).2

/-- a login is told to the counter of its address -/
theorem run_login (h : HoldsLogins engine)
    (hx : x.event.eventType ∈ [LOGIN_FAILED, LOGIN_SUCCESS]) (heo : x.enforcementOnly = false) :
    (l.run engine frames s x).2.counters = l.counted x s.counters := by
  have hevaluate : ∀ ctx, (l.brute.evaluate l.b x.time x.event ctx s.counters).1 ≠ .other ∧
      (l.brute.evaluate l.b x.time x.event ctx s.counters).2 = l.counted x s.counters := by
    intro ctx
    unfold BruteForceLoginRule.evaluate counted
    dsimp only
    split
    · exact ⟨Outcome.noConfusion, rfl⟩
    · split
      · exact ⟨Outcome.noConfusion, rfl⟩
      · split
        · exact ⟨Outcome.noConfusion, rfl⟩
        · exact ⟨Outcome.noConfusion, rfl⟩
  refine (@run_one Response τ l engine frames s x BruteForceLoginRule.rule _
    (l.counted x s.counters) h (internal_of (List.mem_append_left [REQUEST_PRE] hx) rfl)
    (applies_eq h ?_ le_rfl) fun ctx =>
      ⟨?_, site_attributes (.inl rfl) _ _ _, rfl, by decide, (hevaluate ctx).1⟩).2
  · unfold RuleEngine.ruleApplies
    rw [heo]
    rcases List.mem_cons.mp hx with hx | hx
    · rw [hx]
      decide
    · rw [List.mem_singleton.mp hx]
      decide
  · rw [site_brute]
    dsimp only
    rw [(hevaluate ctx).2]

/-- a login that is only looked at is not -/
theorem run_look (h : HoldsLogins engine)
    (hx : x.event.eventType ∈ [LOGIN_FAILED, LOGIN_SUCCESS]) (heo : x.enforcementOnly = true) :
    (l.run engine frames s x).2.counters = s.counters := by
  refine run_none h (internal_of (List.mem_append_left [REQUEST_PRE] hx) rfl)
    (applies_eq h ?_ (Nat.zero_le 1))
  unfold RuleEngine.ruleApplies
  rw [heo]
  rcases List.mem_cons.mp hx with hx | hx
  · rw [hx]
    decide
  · rw [List.mem_singleton.mp hx]
    decide

end LoginSite

/-! ## runs -/

section
variable {b : Builtins} {a : Str} {xs : List Evaluation}

theorem loginsOf_concat : loginsOf b a (xs ++ [x])
    = if x.isLogin b a then x :: loginsOf b a xs else loginsOf b a xs := by
  unfold loginsOf
  rw [List.filter_append, List.reverse_append, List.filter_singleton]
  cases x.isLogin b a <;> rfl

theorem recentFailures_other (h : x.isLogin b a = false) :
    recentFailures b a (xs ++ [x]) = recentFailures b a xs := by
  unfold recentFailures
  rw [loginsOf_concat, h]
  rfl

theorem recentFailures_failed (h : x.isLogin b a = true) (hf : x.event.eventType = LOGIN_FAILED) :
    recentFailures b a (xs ++ [x]) = x.time :: recentFailures b a xs := by
  unfold recentFailures
  rw [loginsOf_concat, if_pos h, List.takeWhile_cons_of_pos (by simpa using hf)]
  rfl

theorem recentFailures_success (h : x.isLogin b a = true)
    (hs : x.event.eventType = LOGIN_SUCCESS) : recentFailures b a (xs ++ [x]) = [] := by
  unfold recentFailures
  rw [loginsOf_concat, if_pos h, List.takeWhile_cons_of_neg (by rw [hs]; decide)]
  rfl

theorem recentFailures_sorted (h : xs.Pairwise fun x y => x.time ≤ y.time) :
    (recentFailures b a xs).Pairwise fun x y => y ≤ x := by
  unfold recentFailures loginsOf
  rw [List.pairwise_map]
  refine List.Pairwise.sublist (List.takeWhile_sublist _) ?_
  rw [List.pairwise_reverse]
  exact h.sublist List.filter_sublist

end

namespace LoginSite

/-- a run of events on logins, at increasing times and of addresses without an underscore -/
structure LoginRun (l : LoginSite Response τ) (xs : List Evaluation) : Prop where
  times : xs.Pairwise fun x y => x.time ≤ y.time
  types : ∀ x ∈ xs, x.event.eventType ∈ [LOGIN_FAILED, LOGIN_SUCCESS, REQUEST_PRE]
  addresses : ∀ x ∈ xs, cp '_' ∉ (x.event.source l.b).address

theorem LoginRun.init {xs : List Evaluation} (h : l.LoginRun (xs ++ [x])) : l.LoginRun xs :=
  ⟨(List.pairwise_append.mp h.times).1, fun y hy => h.types y (List.mem_append_left _ hy),
    fun y hy => h.addresses y (List.mem_append_left _ hy)⟩

theorem after_concat (xs : List Evaluation) : l.after engine frames s (xs ++ [x])
    = (l.run engine frames (l.after engine frames s xs) x).2 := by
  unfold after
  rw [List.foldl_concat]

/-- a login from elsewhere leaves the counter of an address alone -/
theorem counted_other {a : Str} {m : FixedWindows} (ha : cp '_' ∉ a)
    (hx : cp '_' ∉ (x.event.source l.b).address) (hne : (x.event.source l.b).address ≠ a) :
    l.counted x m (loginFailuresKey a) = m (loginFailuresKey a) := by
  have hkey : loginFailuresKey a ≠ loginFailuresKey (x.event.source l.b).address := fun h =>
    hne (loginFailuresKey_injective hx ha h.symm)
  unfold counted
  split
  · rfl
  · split
    · exact Function.update_of_ne hkey _ _
    · unfold FixedWindows.incr
      split
      · exact Function.update_of_ne hkey _ _
      · exact Function.update_of_ne hkey _ _

/-- **the counter of an address after a run** -/
theorem live_failures (h : HoldsLogins engine) (hempty : s.counters = fun _ => none) {a : Str}
    (ha : cp '_' ∉ a) (hane : a ≠ []) {xs : List Evaluation} (hxs : l.LoginRun xs) {now : ℚ}
    (hnow : ∀ x ∈ xs, x.time ≤ now) :
    Windows.live now (l.after engine frames s xs).counters (loginFailuresKey a)
      = counterOf l.brute.windowSeconds now (recentFailures l.b a xs) := by
  induction xs using List.reverseRecOn generalizing now with
  | nil =>
    show Windows.live now s.counters _ = none
    rw [hempty]
    rfl
  | append_singleton xs x ih =>
    have hx : x ∈ xs ++ [x] := List.mem_append_right _ List.mem_cons_self
    have hbefore : ∀ y ∈ xs, y.time ≤ now := fun y hy => hnow y (List.mem_append_left _ hy)
    rw [after_concat]
    -- an event that is no login of the address
    have hother : (l.run engine frames (l.after engine frames s xs) x).2.counters
          (loginFailuresKey a) = (l.after engine frames s xs).counters (loginFailuresKey a) →
        x.isLogin l.b a = false →
        Windows.live now (l.run engine frames (l.after engine frames s xs) x).2.counters
          (loginFailuresKey a)
          = counterOf l.brute.windowSeconds now (recentFailures l.b a (xs ++ [x])) := by
      intro hc hl
      rw [recentFailures_other hl, ← ih hxs.init hbefore]
      unfold Windows.live
      rw [hc]
    by_cases hlogin : x.event.eventType ∈ [LOGIN_FAILED, LOGIN_SUCCESS]
    · cases heo : x.enforcementOnly with
      | true =>
        refine hother (by rw [run_look h hlogin heo]) ?_
        unfold Evaluation.isLogin
        rw [heo]
        rfl
      | false =>
        rw [run_login h hlogin heo] at hother ⊢
        by_cases hax : (x.event.source l.b).address = a
        · have hl : x.isLogin l.b a = true := by
            unfold Evaluation.isLogin
            rw [heo, decide_eq_true hax, decide_eq_true hlogin]
            rfl
          unfold counted
          rw [hax, if_neg hane]
          rcases List.mem_cons.mp hlogin with hf | hs
          · rw [if_neg (by rw [hf]; decide), recentFailures_failed hl hf]
            refine live_incr (ih hxs.init fun y hy => ?_) ?_ (hnow x hx)
            · exact (List.pairwise_append.mp hxs.times).2.2 y hy x List.mem_cons_self
            · rw [← recentFailures_failed hl hf]
              exact recentFailures_sorted hxs.times
          · rw [if_pos (List.mem_singleton.mp hs),
              recentFailures_success hl (List.mem_singleton.mp hs)]
            unfold Windows.live
            rw [Function.update_self]
            rfl
        · refine hother (counted_other ha (hxs.addresses x hx) hax) ?_
          unfold Evaluation.isLogin
          rw [decide_eq_false hax, Bool.and_false, Bool.false_and]
    · have hpre : x.event.eventType = REQUEST_PRE := by
        have := hxs.types x hx
        simp only [List.mem_cons, List.not_mem_nil, or_false, not_or] at this hlogin
        exact (this.resolve_left hlogin.1).resolve_left hlogin.2
      refine hother (by rw [(run_pre h hpre).2]) ?_
      unfold Evaluation.isLogin
      rw [decide_eq_false hlogin, Bool.and_false]

/-- **a request is throttled** exactly when as many logins from its address failed since the open
window opened, where a successful login closes the window -/
theorem throttles_iff (l : LoginSite Response τ) (engine : RuleEngine Response)
    (hengine : HoldsLogins engine) (frames : Nat) (s : LoginState τ)
    (hempty : s.counters = fun _ => none) (xs : List Evaluation) (x : Evaluation)
    (hrun : l.LoginRun (xs ++ [x])) (hpre : x.event.eventType = REQUEST_PRE)
    (hpath : l.throttle.monitors l.b x.event = true)
    (hclient : (x.event.source l.b).address ≠ []) :
    ∃ found, (l.run engine frames (l.after engine frames s xs) x).1 = .ok found ∧
      ((∃ m ∈ found, m.ruleName = LoginThrottleRule.rule.name) ↔ l.throttle.threshold ≤
        failuresSince l.brute.windowSeconds x.time
          (recentFailures l.b (x.event.source l.b).address xs)
          (recentFailures l.b (x.event.source l.b).address xs)) := by
  obtain ⟨⟨ctx, hfound⟩, -⟩ := @run_pre Response τ l engine frames (l.after engine frames s xs) x
    hengine hpre
  refine ⟨_, hfound, ?_⟩
  have hx : x ∈ xs ++ [x] := List.mem_append_right _ List.mem_cons_self
  have hcount := getInt_counterOf (@live_failures Response τ l engine frames s hengine hempty
    (x.event.source l.b).address (hrun.addresses x hx) hclient xs hrun.init x.time fun y hy =>
      (List.pairwise_append.mp hrun.times).2.2 y hy x List.mem_cons_self)
  unfold LoginThrottleRule.evaluate
  dsimp only
  rw [if_neg (by rw [hpath]; exact Bool.false_ne_true), if_neg hclient, hcount]
  split
  · rename_i hlt
    refine iff_of_false ?_ (Int.not_le.mpr hlt)
    rintro ⟨m, hm, -⟩
    exact List.not_mem_nil hm
  · rename_i hlt
    exact iff_of_true ⟨_, List.mem_cons_self, rfl⟩ (Int.not_lt.mp hlt)

end LoginSite

end

/-! ## a login between failures -/

namespace LoginSite

/-- two failures within five minutes, and every path -/
def sample : LoginSite Unit Unit :=
  ⟨.sample, { threshold := 2 }, { threshold := 2, paths := [] }, .quiet⟩

def sampleEngine : RuleEngine Unit where
  rules := [BruteForceLoginRule.rule, LoginThrottleRule.rule]
  historyExtractors := (ScopeRegistry.default .sample).extractors

theorem sampleEngine_holds : HoldsLogins sampleEngine :=
  ⟨List.Perm.refl _, fun _ h => absurd h List.not_mem_nil, fun summary => by
    obtain ⟨keys, hk, -⟩ := @default_scopeKeys summary .sample
    exact ⟨keys, hk⟩⟩

/-- an event from `9.9.9.9`, looked at in full -/
def sampleEvent (time : ℚ) (eventType : Str) : Evaluation :=
  ⟨time, .make eventType [(str "srcip", .string (str "9.9.9.9"))], false⟩

theorem sample_run {xs : List (ℚ × Str)} (ht : (xs.map Prod.fst).Pairwise (· ≤ ·))
    (hs : ∀ x ∈ xs, x.2 ∈ [LOGIN_FAILED, LOGIN_SUCCESS, REQUEST_PRE]) :
    sample.LoginRun (xs.map fun x => sampleEvent x.1 x.2) := by
  refine ⟨?_, ?_, ?_⟩
  · rw [List.pairwise_map] at ht ⊢
    exact ht
  · intro y hy
    obtain ⟨x, hx, rfl⟩ := List.mem_map.mp hy
    exact hs x hx
  · intro y hy
    obtain ⟨x, hx, rfl⟩ := List.mem_map.mp hy
    have haddress : ∀ t, (RuleEvent.source .sample (.make t
        [(str "srcip", .string (str "9.9.9.9"))])).address = str "9.9.9.9" := fun t => rfl
    show cp '_' ∉ (RuleEvent.source .sample (.make x.2 _)).address
    rw [haddress]
    decide

/-- two failures, and a request -/
theorem throttles_sample : ∃ found,
    (sample.run sampleEngine 100 (sample.after sampleEngine 100 ⟨fun _ => none, 0, ()⟩
      [sampleEvent 0 LOGIN_FAILED, sampleEvent 1 LOGIN_FAILED]) (sampleEvent 2 REQUEST_PRE)).1
      = .ok found ∧
    ((∃ m ∈ found, m.ruleName = LoginThrottleRule.rule.name) ↔
      (2 : Int) ≤ failuresSince 300 2 [1, 0] [1, 0]) :=
  throttles_iff sample sampleEngine sampleEngine_holds 100 ⟨fun _ => none, 0, ()⟩ rfl
    [sampleEvent 0 LOGIN_FAILED, sampleEvent 1 LOGIN_FAILED] (sampleEvent 2 REQUEST_PRE)
    (@sample_run [(0, LOGIN_FAILED), (1, LOGIN_FAILED), (2, REQUEST_PRE)] (by decide) (by decide))
    rfl rfl (by decide)

/-- a failure after a successful login opens a window of its own -/
theorem window_closed : ¬ ∀ (l : LoginSite Unit Unit) (engine : RuleEngine Unit),
    HoldsLogins engine → ∀ (frames : Nat) (s : LoginState Unit), s.counters = (fun _ => none) →
    ∀ (xs : List Evaluation) (x : Evaluation), l.LoginRun (xs ++ [x]) →
    x.event.eventType = REQUEST_PRE → l.throttle.monitors l.b x.event = true →
    (x.event.source l.b).address ≠ [] → 0 < l.throttle.threshold → 0 < l.brute.threshold →
    ∃ found, (l.run engine frames (l.after engine frames s xs) x).1 = .ok found ∧
      ((∃ m ∈ found, m.ruleName = LoginThrottleRule.rule.name) ↔ l.throttle.threshold ≤
        failuresSince l.brute.windowSeconds x.time (failuresOf l.b (x.event.source l.b).address xs)
          (recentFailures l.b (x.event.source l.b).address xs)) := by
  intro h
  obtain ⟨found, hfound, hiff⟩ := h sample sampleEngine sampleEngine_holds 100
    ⟨fun _ => none, 0, ()⟩ rfl [sampleEvent 0 LOGIN_FAILED, sampleEvent 10 LOGIN_SUCCESS,
      sampleEvent 20 LOGIN_FAILED, sampleEvent 21 LOGIN_FAILED] (sampleEvent 310 REQUEST_PRE)
    (@sample_run [(0, LOGIN_FAILED), (10, LOGIN_SUCCESS), (20, LOGIN_FAILED), (21, LOGIN_FAILED),
      (310, REQUEST_PRE)] (by decide) (by decide)) rfl rfl (by decide) (by decide) (by decide)
  have hmatches : ((sample.run sampleEngine 100 (sample.after sampleEngine 100
      ⟨fun _ => none, 0, ()⟩ [sampleEvent 0 LOGIN_FAILED, sampleEvent 10 LOGIN_SUCCESS,
        sampleEvent 20 LOGIN_FAILED, sampleEvent 21 LOGIN_FAILED])
      (sampleEvent 310 REQUEST_PRE)).1.map fun found => found.any fun m =>
        decide (m.ruleName = LoginThrottleRule.rule.name)) = .ok true := by
    decide +kernel
  rw [hfound] at hmatches
  injection hmatches with hany
  obtain ⟨m, hm, hname⟩ := List.any_eq_true.mp hany
  have hcount := hiff.mp ⟨m, hm, of_decide_eq_true hname⟩
  exact absurd hcount (by decide +kernel)

end LoginSite

end SecAudit
