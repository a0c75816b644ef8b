import SecAudit.Rules.Issues

/-!
# An evaluation, by what its rules return

* `runRules_filter` the rules that do not apply do nothing;
* `Returns`         a rule returns a match or none, and contributes a mapping or nothing;
* `exec_runRules_each`  the loop over several rules, by what each gives (`RuleReply`);
* `exec_evaluateRule_any`  what a rule gives that is only known to keep to an invariant;
* `exec_evaluate`, `exec_evaluateIn`, `exec_runRules_one`  what an evaluation returns, and the
                    state that the sinks and the history start from.
-/

set_option linter.unusedVariables false

namespace SecAudit
open Py Prog

/-- the match of an outcome -/
def Outcome.toOption : Outcome → Option RuleMatch
  | .none => Option.none
  | .found m => some m
  | .other => Option.none

/-- what a rule has contributed to the history -/
def Contribution.toAttrs (name : Str) : Contribution → RuleAttrs
  | .mapping items => [(name, items)]
  | _ => []

section
variable {Response σ : Type} {site : Site Response σ} {engine : RuleEngine Response}
  {ctx : EvaluationContext} {eo : Bool} {rule : Rule} {s s₁ s₂ : σ} {outcome : Outcome}
  {contribution : Contribution}

theorem runRules_cons (rules : List Rule) (found : List RuleMatch) (attrs : RuleAttrs) :
    engine.runRules ctx eo (rule :: rules) found attrs
      = if RuleEngine.ruleApplies rule ctx.ruleEvent eo then
          engine.evaluateRule rule ctx eo attrs >>= fun r =>
            engine.runRules ctx eo rules (found ++ r.1.toList) r.2
        else engine.runRules ctx eo rules found attrs := rfl

/-- the rules that do not apply do nothing -/
theorem runRules_filter : ∀ (rules : List Rule) (found : List RuleMatch) (attrs : RuleAttrs),
    engine.runRules ctx eo rules found attrs
      = engine.runRules ctx eo
        (rules.filter fun rule => RuleEngine.ruleApplies rule ctx.ruleEvent eo) found attrs
  | [], _, _ => rfl
  | rule :: rules, found, attrs => by
    rw [List.filter_cons, runRules_cons]
    split
    · rename_i h
      rw [runRules_cons, if_pos h]
      congr 1
      funext r
      exact runRules_filter rules _ _
    · exact runRules_filter rules found attrs

/-- a rule that returns what it should, and contributes what it may -/
structure Returns (site : Site Response σ) (rule : Rule) (event : RuleEvent) (c : RuleContext)
    (s : σ) (outcome : Outcome) (contribution : Contribution) (s₁ s₂ : σ) : Prop where
  evaluate : site.ruleEvaluate rule event c s = (.ok outcome, s₁)
  attributes : site.ruleAttributes rule event c s₁ = (.ok contribution, s₂)
  valid : rule.contextValid = true
  named : rule.name ≠ []
  proper : outcome ≠ .other

/-- one rule, after contributions under other names -/
theorem exec_evaluateRule {attrs : RuleAttrs} (hfresh : rule.name ∉ attrs.map Prod.fst)
    (h : Returns site rule ctx.ruleEvent ctx.ruleContext s outcome contribution s₁ s₂) :
    exec site.handler (engine.evaluateRule rule ctx eo attrs) s
      = (.ok (outcome.toOption, attrs ++ contribution.toAttrs rule.name), s₂) := by
  have hattempt : exec site.handler (RuleEngine.attemptRule rule ctx) s = (.ok outcome, s₁) := by
    unfold RuleEngine.attemptRule
    rw [if_pos h.valid]
    exact h.evaluate
  have hcollect : exec site.handler (engine.collectHistoryAttributes rule ctx eo attrs) s₁
      = (.ok (attrs ++ contribution.toAttrs rule.name), s₂) := by
    unfold RuleEngine.collectHistoryAttributes
    rw [if_neg h.named, exec_attempt, exec_perform]
    rw [show site.handler _ (Eff.ruleAttributes rule ctx.ruleEvent ctx.ruleContext) s₁
      = (.ok contribution, s₂) from h.attributes]
    cases contribution with
    | mapping items => exact congrArg (fun l => (Except.ok l, s₂)) (setItem_fresh items hfresh)
    | none => exact congrArg (fun l => (Except.ok l, s₂)) (List.append_nil attrs).symm
    | other => exact congrArg (fun l => (Except.ok l, s₂)) (List.append_nil attrs).symm
  have hvalidate : exec site.handler (engine.validateMatch outcome) s₂
      = (.ok outcome.toOption, s₂) := by
    cases outcome with
    | none => rfl
    | found m => rfl
    | other => exact absurd rfl h.proper
  unfold RuleEngine.evaluateRule
  rw [exec_attempt, hattempt]
  show exec site.handler (_ >>= _) s₁ = _
  rw [exec_bind_ok _ hcollect, exec_bind_ok _ hvalidate]
  rfl

theorem exec_runRules_one (happlies : RuleEngine.ruleApplies rule ctx.ruleEvent eo = true)
    (h : Returns site rule ctx.ruleEvent ctx.ruleContext s outcome contribution s₁ s₂) :
    exec site.handler (engine.runRules ctx eo [rule] [] []) s
      = (.ok (outcome.toOption.toList, contribution.toAttrs rule.name), s₂) := by
  have hrule := @exec_evaluateRule Response σ site engine ctx eo rule s s₁ s₂ outcome contribution
    [] List.not_mem_nil h
  rw [runRules_cons, if_pos happlies, exec_bind_ok _ hrule, List.nil_append]
  rfl

/-! ## several rules -/

/-- what a rule was found to give -/
structure RuleReply where
  rule : Rule
  found : Option RuleMatch
  contribution : Contribution

def RuleReply.attrs (r : RuleReply) : RuleAttrs := r.contribution.toAttrs r.rule.name

theorem toAttrs_names (name : Str) (contribution : Contribution) :
    ((contribution.toAttrs name).map Prod.fst).Sublist [name] := by
  cases contribution with
  | mapping items => exact List.Sublist.refl _
  | none => exact List.nil_sublist _
  | other => exact List.nil_sublist _

theorem names_of_replies (replies : List RuleReply) :
    ((replies.flatMap RuleReply.attrs).map Prod.fst).Sublist
      ((replies.map RuleReply.rule).map Rule.name) := by
  induction replies with
  | nil => exact List.Sublist.refl _
  | cons r replies ih =>
    rw [List.flatMap_cons, List.map_append]
    exact (toAttrs_names r.rule.name r.contribution).append ih

/-- **the loop over the rules**, where each that applies keeps to `I` and gives what `Q` says -/
theorem exec_runRules_each {I : σ → Prop} {Q : RuleReply → Prop} : ∀ (rules : List Rule)
    (hstep : ∀ rule ∈ rules, RuleEngine.ruleApplies rule ctx.ruleEvent eo = true →
      ∀ (attrs : RuleAttrs) (s : σ), rule.name ∉ attrs.map Prod.fst → I s →
      ∃ r s', r.rule = rule ∧ Q r ∧ I s' ∧ exec site.handler
        (engine.evaluateRule rule ctx eo attrs) s = (.ok (r.found, attrs ++ r.attrs), s'))
    (found : List RuleMatch) (attrs : RuleAttrs) (s : σ),
    (attrs.map Prod.fst ++ rules.map Rule.name).Nodup → I s →
    ∃ (replies : List RuleReply) (s' : σ), replies.map RuleReply.rule
        = rules.filter (fun rule => RuleEngine.ruleApplies rule ctx.ruleEvent eo) ∧
      (∀ r ∈ replies, Q r) ∧ I s' ∧
      exec site.handler (engine.runRules ctx eo rules found attrs) s
        = (.ok (found ++ replies.filterMap RuleReply.found,
            attrs ++ replies.flatMap RuleReply.attrs), s')
  | [], _, found, attrs, s, _, hs => by
    refine ⟨[], s, rfl, fun r hr => absurd hr List.not_mem_nil, hs, ?_⟩
    rw [List.filterMap_nil, List.flatMap_nil, List.append_nil, List.append_nil]
    rfl
  | rule :: rules, hstep, found, attrs, s, hnd, hs => by
    have hrest : ∀ rule ∈ rules, _ := fun rule hr => hstep rule (List.mem_cons_of_mem _ hr)
    rw [List.map_cons] at hnd
    rw [runRules_cons, List.filter_cons]
    split
    · rename_i happlies
      have hfresh : rule.name ∉ attrs.map Prod.fst := fun hm =>
        (List.nodup_append.mp hnd).2.2 _ hm _ List.mem_cons_self rfl
      obtain ⟨r, s₁, rfl, hr, hs₁, hone⟩ := hstep _ List.mem_cons_self happlies attrs s hfresh hs
      have hnd' : ((attrs ++ r.attrs).map Prod.fst ++ rules.map Rule.name).Nodup := by
        refine hnd.sublist ?_
        rw [List.map_append, List.append_assoc]
        exact (List.Sublist.refl _).append
          ((toAttrs_names r.rule.name r.contribution).append (List.Sublist.refl _))
      obtain ⟨replies, s', hrules, hall, hs', hexec⟩ := exec_runRules_each rules hrest
        (found ++ r.found.toList) (attrs ++ r.attrs) s₁ hnd' hs₁
      refine ⟨r :: replies, s', congrArg (r.rule :: ·) hrules, ?_, hs', ?_⟩
      · rintro r' (_ | ⟨_, hr'⟩)
        · exact hr
        · exact hall r' hr'
      · rw [exec_bind_ok _ hone]
        refine hexec.trans ?_
        rw [List.flatMap_cons, List.append_assoc, List.append_assoc, List.filterMap_cons]
        cases r.found <;> rfl
    · exact exec_runRules_each rules hrest found attrs s
        (hnd.sublist ((List.Sublist.refl _).append (List.sublist_cons_self _ _))) hs

/-- its match and its contribution were given where `I` holds -/
structure RuleReply.Given (site : Site Response σ) (event : RuleEvent) (c : RuleContext)
    (I : σ → Prop) (r : RuleReply) : Prop where
  found : ∀ m, r.found = some m →
    ∃ s, I s ∧ (site.ruleEvaluate r.rule event c s).1 = .ok (.found m)
  contribution : ∀ items, r.contribution = .mapping items →
    ∃ s, I s ∧ (site.ruleAttributes r.rule event c s).1 = .ok (.mapping items)

theorem given_silent (event : RuleEvent) (c : RuleContext) (I : σ → Prop) :
    RuleReply.Given site event c I ⟨rule, none, .none⟩ :=
  ⟨fun _ h => (nomatch h), fun _ h => (nomatch h)⟩

/-- a rule that keeps to `I`, and gives what is no match only to an engine that lets it pass -/
structure KeepsTo (site : Site Response σ) (engine : RuleEngine Response) (rule : Rule)
    (event : RuleEvent) (c : RuleContext) (I : σ → Prop) : Prop where
  evaluate : ∀ s, I s → I (site.ruleEvaluate rule event c s).2
  attributes : ∀ s, I s → I (site.ruleAttributes rule event c s).2
  proper : ∀ s, I s → (site.ruleEvaluate rule event c s).1 = .ok .other → engine.failOpen = true

section
variable {I : σ → Prop} {attrs : RuleAttrs}

theorem exec_collect_any (h : KeepsTo site engine rule ctx.ruleEvent ctx.ruleContext I)
    (hfresh : rule.name ∉ attrs.map Prod.fst) (hs : I s) : ∃ contribution s',
    RuleReply.Given site ctx.ruleEvent ctx.ruleContext I ⟨rule, none, contribution⟩ ∧ I s' ∧
      exec site.handler (engine.collectHistoryAttributes rule ctx false attrs) s
        = (.ok (attrs ++ contribution.toAttrs rule.name), s') := by
  have hnil : (.ok attrs : Except Exc RuleAttrs)
      = .ok (attrs ++ Contribution.toAttrs rule.name .none) :=
    congrArg Except.ok (List.append_nil attrs).symm
  unfold RuleEngine.collectHistoryAttributes
  split
  · exact ⟨.none, s, given_silent _ _ _, hs, congrArg (·, s) hnil⟩
  · have hs' := h.attributes s hs
    rcases hr : site.ruleAttributes rule ctx.ruleEvent ctx.ruleContext s with ⟨reply, s'⟩
    rw [hr] at hs'
    rw [exec_attempt, exec_perform, show site.handler _ (Eff.ruleAttributes rule ctx.ruleEvent
      ctx.ruleContext) s = (reply, s') from hr]
    rcases reply with e | _ | items | _
    · exact ⟨.none, s', given_silent _ _ _, hs', congrArg (·, s') hnil⟩
    · exact ⟨.none, s', given_silent _ _ _, hs', congrArg (·, s') hnil⟩
    · refine ⟨.mapping items, s', ⟨fun _ h => (nomatch h), ?_⟩, hs', ?_⟩
      · rintro _ ⟨⟩
        exact ⟨s, hs, congrArg Prod.fst hr⟩
      · exact congrArg (fun l => (Except.ok l, s')) (setItem_fresh items hfresh)
    · exact ⟨.none, s', given_silent _ _ _, hs', congrArg (·, s') hnil⟩

/-- **a rule among others**: it is passed over where it raises, and what it leaves was given -/
theorem exec_evaluateRule_any (h : KeepsTo site engine rule ctx.ruleEvent ctx.ruleContext I)
    (hfresh : rule.name ∉ attrs.map Prod.fst) (hs : I s) : ∃ (r : RuleReply) (s' : σ),
    r.rule = rule ∧ r.Given site ctx.ruleEvent ctx.ruleContext I ∧ I s' ∧
      exec site.handler (engine.evaluateRule rule ctx false attrs) s
        = (.ok (r.found, attrs ++ r.attrs), s') := by
  have hnil : (.ok (none, attrs) : Except Exc (Option RuleMatch × RuleAttrs))
      = .ok (none, attrs ++ Contribution.toAttrs rule.name .none) :=
    congrArg (fun l => Except.ok (none, l)) (List.append_nil attrs).symm
  unfold RuleEngine.evaluateRule RuleEngine.attemptRule
  by_cases hv : rule.contextValid = true
  · rw [if_pos hv]
    have hs₁ := h.evaluate s hs
    rcases hr : site.ruleEvaluate rule ctx.ruleEvent ctx.ruleContext s with ⟨reply, s₁⟩
    rw [hr] at hs₁
    rw [exec_attempt, exec_perform, show site.handler _ (Eff.ruleEvaluate rule ctx.ruleEvent
      ctx.ruleContext) s = (reply, s₁) from hr]
    rcases reply with e | outcome
    · exact ⟨⟨rule, none, .none⟩, s₁, rfl, given_silent _ _ _, hs₁, congrArg (·, s₁) hnil⟩
    · obtain ⟨contribution, s', hgiven, hs', hcollect⟩ := exec_collect_any h hfresh hs₁
      have hvalidate : exec site.handler (engine.validateMatch outcome) s'
          = (.ok outcome.toOption, s') := by
        cases outcome with
        | none => rfl
        | found m => rfl
        | other =>
          unfold RuleEngine.validateMatch
          rw [if_pos (h.proper s hs (congrArg Prod.fst hr))]
          rfl
      refine ⟨⟨rule, outcome.toOption, contribution⟩, s', rfl,
        ⟨fun m hm => ⟨s, hs, ?_⟩, hgiven.contribution⟩, hs', ?_⟩
      · rw [hr]
        cases outcome with
        | found m' =>
          cases hm
          rfl
        | none => cases hm
        | other => cases hm
      · show exec site.handler (_ >>= _) s₁ = _
        rw [exec_bind_ok _ hcollect, exec_bind_ok _ hvalidate]
        rfl
  · rw [if_neg hv]
    exact ⟨⟨rule, none, .none⟩, s, rfl, given_silent _ _ _, hs, congrArg (·, s) hnil⟩

end

/-! ## the sinks -/

/-- whatever the sinks do, the matches are returned -/
theorem exec_persistEach (sink : RuleMatch → Routine Response Unit) :
    ∀ (found : List RuleMatch) (s : σ),
    (exec site.handler (RuleEngine.persistEach sink found) s).1 = .ok ()
  | [], _ => rfl
  | m :: l, s => by
    unfold RuleEngine.persistEach
    have hcaught : (exec site.handler ((sink m).catchWith fun _ => pure ()) s).1 = .ok () := by
      rw [exec_catchWith]
      rcases exec site.handler (sink m) s with ⟨_ | _, s'⟩ <;> rfl
    rw [exec_bind]
    rcases hx : exec site.handler ((sink m).catchWith fun _ => pure ()) s with ⟨r, s'⟩
    rw [hx] at hcaught
    dsimp only at hcaught
    rw [hcaught]
    exact exec_persistEach sink l s'

theorem exec_persistMatches (found : List RuleMatch) :
    ∀ (sinks : List (RuleMatch → Routine Response Unit)) (s : σ),
    (exec site.handler (RuleEngine.persistMatches found sinks) s).1 = .ok ()
  | [], _ => rfl
  | sink :: sinks, s => by
    unfold RuleEngine.persistMatches
    have heach := @exec_persistEach Response σ site sink found s
    rw [exec_bind]
    rcases hx : exec site.handler (RuleEngine.persistEach sink found) s with ⟨r, s'⟩
    rw [hx] at heach
    dsimp only at heach
    rw [heach]
    exact exec_persistMatches found sinks s'

theorem exec_appendHistory (summary : Summary) (scopeKeys : List ScopeKey) (recordedAt : Int)
    (s : σ) : (exec site.handler (engine.appendHistory summary scopeKeys recordedAt) s).1
      = .ok () := by
  unfold RuleEngine.appendHistory
  split
  · rfl
  · rw [exec_catchWith]
    rcases exec site.handler (perform (.append summary scopeKeys recordedAt)) s with ⟨_ | _, s'⟩
    · rfl
    · rfl

/-! ## the evaluation -/

variable {frames : Nat} {event : RuleEvent} {summary merged : Summary} {scopeKeys : List ScopeKey}
  {found : List RuleMatch} {attrs : RuleAttrs}

/-- what follows the rules -/
def RuleEngine.conclude (engine : RuleEngine Response) (ctx : EvaluationContext)
    (enforcementOnly : Bool) (found : List RuleMatch) (summary : Summary) :
    Routine Response Unit := do
  RuleEngine.persistMatches found engine.resultSinks
  if enforcementOnly then pure () else engine.appendHistory summary ctx.scopeKeys ctx.now

theorem exec_evaluateIn (hrun : exec site.handler (engine.runRules ctx eo engine.rules [] []) s
      = (.ok (found, attrs), s₂))
    (hmerge : RuleEngine.mergeHistoryAttributes frames attrs ctx.summary = .ok merged) :
    exec site.handler (engine.evaluateIn frames ctx eo) s
      = (.ok found, (exec site.handler (engine.conclude ctx eo found merged) s₂).2) := by
  unfold RuleEngine.evaluateIn RuleEngine.conclude
  rw [exec_bind_ok _ hrun]
  have hp := @exec_persistMatches Response σ site found engine.resultSinks s₂
  rcases hx : exec site.handler (RuleEngine.persistMatches found engine.resultSinks) s₂
    with ⟨r, s'⟩
  rw [hx] at hp
  dsimp only at hp
  subst hp
  rw [exec_bind_ok _ hx, exec_bind_ok _ hx]
  cases eo with
  | true => rfl
  | false =>
    have ha := @exec_appendHistory Response σ site engine merged ctx.scopeKeys ctx.now s'
    rw [if_neg Bool.false_ne_true, if_neg Bool.false_ne_true]
    dsimp only
    rw [hmerge]
    rcases hy : exec site.handler (engine.appendHistory merged ctx.scopeKeys ctx.now) s'
      with ⟨r, s''⟩
    rw [hy] at ha
    dsimp only at ha
    subst ha
    show exec site.handler (engine.appendHistory merged ctx.scopeKeys ctx.now >>= _) s' = _
    rw [exec_bind_ok _ hy]
    rfl

/-- the context of an event -/
theorem exec_evaluate (hint : RuleEngine.isInternalEvent event = false)
    (hsummary : createHistorySummary engine.sensitiveKeys engine.valuePatterns event
      = .ok summary)
    (hkeys : extractScopeKeys summary engine.historyExtractors [] = .ok scopeKeys) :
    exec site.handler (engine.evaluate frames event eo) s
      = exec site.handler
        (engine.evaluateIn frames ⟨event, site.clock s, summary, scopeKeys⟩ eo) s := by
  have hctx : exec site.handler (engine.buildEvaluationContext event) s
      = (.ok ⟨event, site.clock s, summary, scopeKeys⟩, s) := by
    unfold RuleEngine.buildEvaluationContext
    rw [exec_bind_ok _ (show exec site.handler (perform .clock) s = (.ok (site.clock s), s) from rfl),
      hsummary]
    show exec site.handler (ofExcept (extractScopeKeys summary engine.historyExtractors [])
      >>= _) s = _
    rw [hkeys]
    rfl
  unfold RuleEngine.evaluate
  rw [if_neg (by rw [hint]; exact Bool.false_ne_true), exec_attempt, hctx]

end

end SecAudit
