import SecAudit.Enforce.Enforcer
import SecAudit.Prog.Only
import SecAudit.Rules.Readers

/-!
# Permanent bans on an address

* `BansUnder`       the scope names a match is banned under for good, read off the configuration;
* `bansUnder_iff`   they are those of the action the match is resolved to;
* `SlipsToIp`       such a ban reaches an address that the operator did not list;
* `permanent_ip_listed`  no address is banned for good unless the operator listed it, exactly when
                    no ban slips;
* `slipsToIp_default`  the ways a ban slips in the default registry.
-/

set_option linter.unusedVariables false

namespace SecAudit
open Py Prog

namespace Enforcer

section
variable (py : Interp) (e : Enforcer) (m : RuleMatch)

/-- the entry of the rule lists `ip` in its scopes -/
def ListsIp : Prop :=
  ∃ spec l, getItem m.ruleName e.ruleActions = some spec ∧ spec.scopes = some (.ok l) ∧
    str "ip" ∈ l

/-- an action that blocks for good: always, or from a severity on -/
def Escalates (action : Str) : Prop :=
  action = str "persist_block" ∨ (action = str "block" ∧ e.severityOk m = true)

/-- the match is banned for good under the scopes named: by the entry of its rule, else by its
decision, else by default -/
def BansUnder (scopes : List Str) : Prop :=
  match getItem m.ruleName e.ruleActions with
  | some spec => e.Escalates m spec.action ∧
      spec.scopes.getD (.ok DEFAULT_BLOCK_SCOPES) = .ok scopes
  | none => getItem m.ruleName e.blockRules = none ∧
      (∃ ttl, matchBlockTtl py m e.defaultTtl = .ok ttl) ∧ match decided m with
        | some decision => e.Escalates m decision ∧ scopes
            = if decision = str "persist_block" then PERSIST_DEFAULT_SCOPES else DEFAULT_BLOCK_SCOPES
        | none => e.Escalates m e.defaultAction ∧ scopes = DEFAULT_BLOCK_SCOPES

/-- the scope names let the registry find an address -/
def ReachesIp (scopes : List Str) : Prop :=
  ∃ summary found, e.registry.blockScopes summary (some scopes) = .ok found ∧
    ∃ s ∈ found, s.scopeType = str "ip"

/-- a ban for good, on an address, that the operator did not list -/
def SlipsToIp : Prop :=
  ¬ e.ListsIp m ∧ (∃ safe, safeMetadata py m = .ok safe) ∧
    ∃ scopes, e.BansUnder py m scopes ∧ e.ReachesIp scopes

end

/-! ## the action of a match -/

section
variable {py : Interp} {e : Enforcer} {m : RuleMatch} {scopes : List Str}

theorem kind_escalates {action : RuleAction} :
    e.actionKind action m = some .permanent ↔ e.Escalates m action.action := actionKind_permanent

theorem matchAction_ok {action : Str} {r : RuleAction} {defaultTtl : Option Int} :
    matchAction py action m defaultTtl scopes = .ok r ↔
      ∃ ttl, matchBlockTtl py m defaultTtl = .ok ttl ∧ r = { action, ttl, scopes } := by
  unfold matchAction
  cases ht : matchBlockTtl py m defaultTtl with
  | error x =>
    simp only [bind, Except.bind]
    exact ⟨nofun, fun ⟨_, h, _⟩ => nomatch h⟩
  | ok ttl =>
    simp only [bind, Except.bind]
    constructor
    · intro h
      exact ⟨ttl, rfl, (Except.ok.inj h).symm⟩
    · rintro ⟨ttl', h, rfl⟩
      rw [← Except.ok.inj h]
      rfl

/-- an action with the ttl of the match bans for good under its scopes -/
theorem matchAction_bans {action : Str} {scopes' : List Str} :
    (∃ r, matchAction py action m e.defaultTtl scopes' = .ok r ∧
      e.actionKind r m = some .permanent ∧ r.scopes = scopes) ↔
    (∃ ttl, matchBlockTtl py m e.defaultTtl = .ok ttl) ∧ e.Escalates m action ∧
      scopes = scopes' := by
  constructor
  · rintro ⟨r, hr, hk, rfl⟩
    obtain ⟨ttl, ht, rfl⟩ := matchAction_ok.mp hr
    exact ⟨⟨ttl, ht⟩, kind_escalates.mp hk, rfl⟩
  · rintro ⟨⟨ttl, ht⟩, hk, rfl⟩
    exact ⟨_, matchAction_ok.mpr ⟨ttl, ht, rfl⟩, kind_escalates.mpr hk, rfl⟩

theorem configured_ok {spec : ActionSpec} {r : RuleAction} :
    configuredRuleAction spec = .ok r ↔
      ∃ l, spec.scopes.getD (.ok DEFAULT_BLOCK_SCOPES) = .ok l ∧
        r = ⟨spec.action, spec.ttl, l, spec.statusCode, spec.message⟩ := by
  unfold configuredRuleAction
  cases hs : spec.scopes.getD (.ok DEFAULT_BLOCK_SCOPES) with
  | error x =>
    simp only [bind, Except.bind]
    exact ⟨nofun, fun ⟨_, h, _⟩ => nomatch h⟩
  | ok l =>
    simp only [bind, Except.bind]
    constructor
    · intro h
      exact ⟨l, rfl, (Except.ok.inj h).symm⟩
    · rintro ⟨l', h, rfl⟩
      rw [← Except.ok.inj h]
      rfl

/-- an action that does not block for good -/
theorem not_bans {r : RuleAction} (h : ¬ e.Escalates m r.action) :
    ¬ ∃ r', (.ok r : Except Exc RuleAction) = .ok r' ∧ e.actionKind r' m = some .permanent ∧
      r'.scopes = scopes := by
  rintro ⟨r', hr, hk, -⟩
  rw [← Except.ok.inj hr] at hk
  exact h (kind_escalates.mp hk)

theorem not_escalates_temp : ¬ e.Escalates m (str "temp_block") := by
  rintro (h | ⟨h, -⟩)
  · exact absurd h (by decide)
  · exact absurd h (by decide)

/-- **what the configuration bans for good** is what the resolved action does -/
theorem bansUnder_iff : e.BansUnder py m scopes ↔ ∃ r, e.resolveAction py m = .ok r ∧
    e.actionKind r m = some .permanent ∧ r.scopes = scopes := by
  unfold BansUnder resolveAction resolveRuleAction
  cases hspec : getItem m.ruleName e.ruleActions with
  | some spec =>
    dsimp only
    constructor
    · rintro ⟨hesc, hl⟩
      exact ⟨_, configured_ok.mpr ⟨scopes, hl, rfl⟩, kind_escalates.mpr hesc, rfl⟩
    · rintro ⟨r, hr, hk, rfl⟩
      obtain ⟨l, hl, rfl⟩ := configured_ok.mp hr
      exact ⟨kind_escalates.mp hk, hl⟩
  | none =>
    dsimp only
    cases hrule : getItem m.ruleName e.blockRules with
    | some rule => exact iff_of_false (fun h => nomatch h.1) (not_bans not_escalates_temp)
    | none =>
      dsimp only
      rw [eq_self, true_and]
      cases hdec : decided m with
      | some decision => exact matchAction_bans.symm
      | none =>
        dsimp only
        split
        · rename_i h
          rw [h]
          refine iff_of_false (fun h' => ?_) (not_bans ?_)
          · rcases h'.2.1 with h' | ⟨h', -⟩
            · exact absurd h' (by decide)
            · exact absurd h' (by decide)
          · rintro (h' | ⟨h', -⟩)
            · exact absurd h' (by decide)
            · exact absurd h' (by decide)
        · split
          · exact matchAction_bans.symm
          · rename_i h
            refine iff_of_false (fun h' => ?_) (not_bans ?_)
            · rcases h'.2.1 with h' | ⟨h', -⟩
              · exact h (by rw [h']; decide)
              · exact h (by rw [h']; decide)
            · rintro (h' | ⟨h', -⟩)
              · exact absurd h' (by decide)
              · exact absurd h' (by decide)

end

/-! ## what is written -/

/-- the scope that a call blocks for good -/
def permanentScope {Response β : Type} : Eff Response β → Option BlockScope
  | .block scope _ none => some scope
  | _ => none

section
variable {Response σ : Type} {py : Interp} {e : Enforcer} {m : RuleMatch} {action : RuleAction}
  {summary : Summary}

theorem only_permanentScopes {kind : ActionKind} {metadata : List (Str × Json)}
    {P : BlockScope → Prop} :
    ∀ (scopes : List BlockScope) (results : List Built),
    (kind = .permanent → ∀ s ∈ scopes, P s) →
    Only (fun β (c : Eff Response β) => ∀ s ∈ permanentScope c, P s)
      (e.applyScopes py m action kind metadata scopes results)
  | [], _, _ => only_done _
  | scope :: scopes, results, h => by
    unfold applyScopes applyScope
    refine Only.bind ?_ fun built => only_permanentScopes scopes _ fun hk s hs =>
      h hk s (List.mem_cons_of_mem _ hs)
    refine Only.ofExcept fun ttl ht => ?_
    refine Only.bind (only_perform ?_) fun entry => Only.bind (only_perform ?_) fun now => only_done _
    · intro s hs
      cases ttl with
      | some n => exact absurd hs (Option.not_mem_none s)
      | none =>
        obtain rfl := Option.mem_some_iff.mp hs
        cases kind with
        | permanent => exact h rfl _ List.mem_cons_self
        | temp => exact absurd rfl (blockTtl_temp ht)
    · exact fun s hs => absurd hs (Option.not_mem_none s)

/-- a scope blocked for good is one the registry found under the scope names of the action -/
theorem only_apply : Only (fun β (c : Eff Response β) => ∀ s ∈ permanentScope c,
      e.actionKind action m = some .permanent ∧ (∃ safe, safeMetadata py m = .ok safe) ∧
        ∃ found, e.registry.blockScopes summary (some action.scopes) = .ok found ∧ s ∈ found)
    (e.apply py m action summary) := by
  unfold apply
  cases hk : e.actionKind action m with
  | none =>
    dsimp only
    split
    · refine Only.bind (only_perform fun s hs => absurd hs (Option.not_mem_none s)) fun now => ?_
      exact Only.ofExcept fun built hb => only_done _
    · exact only_done _
  | some kind =>
    refine Only.ofExcept fun found hf => Only.ofExcept fun safe hsafe => ?_
    refine only_permanentScopes found [] fun hp s hs => ?_
    rw [hp]
    exact ⟨rfl, ⟨safe, hsafe⟩, found, hf, hs⟩

/-- **only what the configuration bans for good** is blocked for good -/
theorem enforce_bans {h : Handler (Eff Response) Exc σ} {s : σ} {x : Happening Response}
    (hx : x ∈ trace h (e.enforce py m summary) s) {scope : BlockScope}
    (hs : scope ∈ permanentScope x.cmd) :
    (∃ safe, safeMetadata py m = .ok safe) ∧ ∃ scopes, e.BansUnder py m scopes ∧
      ∃ found, e.registry.blockScopes summary (some scopes) = .ok found ∧ scope ∈ found := by
  refine Only.of_trace (P := fun β (c : Eff Response β) => ∀ s ∈ permanentScope c,
    (∃ safe, safeMetadata py m = .ok safe) ∧ ∃ scopes, e.BansUnder py m scopes ∧
      ∃ found, e.registry.blockScopes summary (some scopes) = .ok found ∧ s ∈ found) ?_ hx scope hs
  unfold enforce
  refine Only.ofExcept fun action ha => only_apply.mono fun β c hc s hs => ?_
  obtain ⟨hk, hsafe, hfound⟩ := hc s hs
  exact ⟨hsafe, action.scopes, bansUnder_iff.mpr ⟨action, ha, hk, rfl⟩, hfound⟩

/-- around a store that takes every block -/
def obliging (Response : Type) : Site Response Unit where
  clock _ := 0
  timeNs _ := 0
  ruleEvaluate _ _ _ s := (.ok .none, s)
  ruleAttributes _ _ _ s := (.ok .none, s)
  sink _ _ s := (.ok (), s)
  append _ _ _ s := (.ok (), s)
  store :=
    { block := fun scope a ttl s => (.ok (BlockEntry.make scope a none none), s)
      unblock := fun _ _ _ s => (.ok 0, s)
      firstActive := fun _ s => (.ok none, s) }
  getResponse s := (.error .typeError, s)

theorem runs_applyScopes_obliging {metadata : List (Str × Json)} :
    ∀ (scopes : List BlockScope) (results : List Built),
    ∃ t r, Runs (obliging Response).handler
        (e.applyScopes py m action .permanent metadata scopes results) () t r () ∧
      ∀ s ∈ scopes, ∃ x ∈ t, s ∈ permanentScope x.cmd
  | [], results => ⟨[], _, Runs.done _ _, fun s hs => absurd hs List.not_mem_nil⟩
  | scope :: scopes, results => by
    obtain ⟨built, -, hrun⟩ := @runs_applyScope_ok Response Unit (obliging Response) py e m action
      .permanent metadata scope none () () _ blockTtl_permanent rfl
    obtain ⟨t, r, hrest, hall⟩ := runs_applyScopes_obliging scopes (results ++ [built])
    refine ⟨_, r, hrun.bind hrest, fun s hs => ?_⟩
    rcases List.mem_cons.mp hs with rfl | hs
    · exact ⟨_, List.mem_cons_self, rfl⟩
    · obtain ⟨x, hx, hp⟩ := hall s hs
      exact ⟨x, List.mem_append_right _ hx, hp⟩

/-- what the configuration bans for good is blocked for good, where the store takes it -/
theorem bans_enforced {scopes : List Str} {found : List BlockScope}
    (hbans : e.BansUnder py m scopes) (hsafe : ∃ safe, safeMetadata py m = .ok safe)
    (hfound : e.registry.blockScopes summary (some scopes) = .ok found) {s : BlockScope}
    (hs : s ∈ found) : ∃ x ∈ trace (obliging Response).handler (e.enforce py m summary) (),
      s ∈ permanentScope x.cmd := by
  obtain ⟨action, ha, hk, rfl⟩ := bansUnder_iff.mp hbans
  obtain ⟨safe, hsafe⟩ := hsafe
  obtain ⟨t, r, hrun, hall⟩ := @runs_applyScopes_obliging Response py e m action safe found []
  have hwhole : Runs (obliging Response).handler (e.enforce py m summary) () t r () := by
    unfold enforce apply
    refine Runs.ofExcept_ok ha ?_
    rw [hk]
    exact Runs.ofExcept_ok hfound (Runs.ofExcept_ok hsafe hrun)
  rw [hwhole.trace_eq]
  exact hall s hs

/-- **no address is banned for good unless the operator listed it**, exactly when no ban slips -/
theorem permanent_ip_listed (Response : Type) (py : Interp) (e : Enforcer) (m : RuleMatch) :
    (∀ (σ : Type) (site : Site Response σ) (summary : Summary) (s : σ),
      ∀ x ∈ trace site.handler (e.enforce py m summary) s, ∀ scope ∈ permanentScope x.cmd,
        scope.scopeType = str "ip" → e.ListsIp m) ↔ ¬ e.SlipsToIp py m := by
  constructor
  · rintro hall ⟨hnot, hsafe, scopes, hbans, summary, found, hfound, s, hs, hip⟩
    obtain ⟨x, hx, hp⟩ := @bans_enforced Response py e m summary scopes found hbans hsafe hfound s hs
    exact hnot (hall Unit (obliging Response) summary () x hx s hp hip)
  · intro hno σ site summary s x hx scope hp hip
    by_contra hnot
    obtain ⟨hsafe, scopes, hbans, found, hfound, hs⟩ := enforce_bans hx hp
    exact hno ⟨hnot, hsafe, scopes, hbans, summary, found, hfound, scope, hs, hip⟩

end

/-! ## the default registry -/

section
variable {py : Interp} {e : Enforcer} {m : RuleMatch} {scopes : List Str}

/-- the default registry finds an address when the scope names have it -/
theorem reachesIp_default (hr : e.registry = .default py.toBuiltins) :
    e.ReachesIp scopes ↔ str "ip" ∈ scopes := by
  unfold ReachesIp
  rw [hr]
  constructor
  · rintro ⟨summary, found, hfound, s, hs, hip⟩
    obtain ⟨found', hok, hpairs⟩ := @default_blockScopes summary py.toBuiltins (some scopes)
    rw [hfound] at hok
    obtain rfl := Except.ok.inj hok
    have hmem : s.pair ∈ found.map BlockScope.pair := List.mem_map_of_mem hs
    rw [hpairs] at hmem
    obtain ⟨x, hx, he, -⟩ := mem_readPairs.mp hmem
    obtain ⟨-, ha⟩ := Bool.and_eq_true_iff.mp (List.mem_filter.mp hx).2
    rw [he, show s.pair.1 = str "ip" from hip] at ha
    exact of_decide_eq_true ha
  · intro hip
    obtain ⟨found, hok, hpairs⟩ := @default_blockScopes
      [(str "srcip", .string (str "192.0.2.1"))] py.toBuiltins (some scopes)
    have hmem : (str "ip", str "192.0.2.1") ∈ found.map BlockScope.pair := by
      rw [hpairs, mem_readPairs]
      refine ⟨(str "ip", fun summary => cleanKey py.toBuiltins (getItem (str "srcip") summary)),
        List.mem_filter.mpr ⟨?_, ?_⟩, rfl, ?_⟩
      · exact List.mem_cons_of_mem _ (List.mem_cons_of_mem _ List.mem_cons_self)
      · exact Bool.and_eq_true_iff.mpr ⟨rfl, decide_eq_true hip⟩
      · rfl
    obtain ⟨s, hs, he⟩ := List.mem_map.mp hmem
    exact ⟨_, found, hok, s, hs, (Prod.mk.inj he).1⟩

/-- a ban for good that names no scopes of its own: an entry without scopes, a severe block that is
decided, or such a default -/
def UnlistedBan (py : Interp) (e : Enforcer) (m : RuleMatch) : Prop :=
  match getItem m.ruleName e.ruleActions with
  | some spec => spec.scopes = none ∧ e.Escalates m spec.action
  | none => getItem m.ruleName e.blockRules = none ∧
      (∃ ttl, matchBlockTtl py m e.defaultTtl = .ok ttl) ∧ match decided m with
        | some decision => decision = str "block" ∧ e.severityOk m = true
        | none => e.Escalates m e.defaultAction

theorem slipsToIp_default (hr : e.registry = .default py.toBuiltins) :
    e.SlipsToIp py m ↔ (∃ safe, safeMetadata py m = .ok safe) ∧ e.UnlistedBan py m := by
  have hreach : (∃ scopes, e.BansUnder py m scopes ∧ e.ReachesIp scopes)
      ↔ ∃ scopes, e.BansUnder py m scopes ∧ str "ip" ∈ scopes :=
    exists_congr fun scopes => and_congr_right fun _ => reachesIp_default hr
  unfold SlipsToIp
  rw [hreach, and_left_comm]
  refine and_congr_right fun _ => ?_
  unfold ListsIp BansUnder UnlistedBan
  cases hspec : getItem m.ruleName e.ruleActions with
  | some spec =>
    dsimp only
    constructor
    · rintro ⟨hnot, scopes, ⟨hesc, hl⟩, hip⟩
      refine ⟨?_, hesc⟩
      cases hs : spec.scopes with
      | none => rfl
      | some l =>
        rw [hs] at hl
        exact absurd ⟨spec, scopes, rfl, hs.trans (congrArg some hl), hip⟩ hnot
    · rintro ⟨hs, hesc⟩
      refine ⟨?_, DEFAULT_BLOCK_SCOPES, ⟨hesc, by rw [hs]; rfl⟩, by decide⟩
      rintro ⟨spec', l, hsp, hl, -⟩
      obtain rfl := Option.some.inj hsp
      rw [hs] at hl
      cases hl
  | none =>
    dsimp only
    have hnot : ¬ ∃ spec l, (none : Option ActionSpec) = some spec ∧ spec.scopes = some (.ok l) ∧
        str "ip" ∈ l := fun ⟨_, _, h, _⟩ => nomatch h
    rw [and_iff_right hnot]
    cases hdec : decided m with
    | none =>
      dsimp only
      constructor
      · rintro ⟨scopes, ⟨hb, ht, hesc, -⟩, -⟩
        exact ⟨hb, ht, hesc⟩
      · rintro ⟨hb, ht, hesc⟩
        exact ⟨_, ⟨hb, ht, hesc, rfl⟩, by decide⟩
    | some decision =>
      dsimp only
      constructor
      · rintro ⟨scopes, ⟨hb, ht, hesc, rfl⟩, hip⟩
        refine ⟨hb, ht, hesc.resolve_left fun hp => ?_⟩
        rw [if_pos hp] at hip
        exact absurd hip (by decide)
      · rintro ⟨hb, ht, hd, hs⟩
        refine ⟨_, ⟨hb, ht, .inr ⟨hd, hs⟩, rfl⟩, ?_⟩
        rw [hd, if_neg (by decide)]
        decide

end

end Enforcer

/-! ## on an entry without scopes -/

/-- `rule_actions = {'burst': 'persist_block'}` -/
def unscoped : Enforcer where
  registry := .default .sample
  schemaVersion := str "1.0"
  ruleActions := [(str "burst", { action := str "persist_block", action_known := by decide })]
  schema_ne := schemaOne_ne

def burst : RuleMatch where
  ruleName := str "burst"
  severity := 3
  matchedAt := 1000
  message := str "found"
  srcip := some (str "192.0.2.1")

/-- the entry names no scopes, and an address is banned for good -/
theorem permanent_ip_unlisted : ¬ ∀ (σ : Type) (site : Site Unit σ) (summary : Summary) (s : σ),
    ∀ x ∈ trace site.handler (unscoped.enforce .sample burst summary) s,
      ∀ scope ∈ Enforcer.permanentScope x.cmd, scope.scopeType = str "ip" →
        unscoped.ListsIp burst := by
  intro hall
  have hsafe : (Enforcer.safeMetadata .sample burst).toBool = true := by decide +kernel
  have hok : ∃ safe, Enforcer.safeMetadata .sample burst = .ok safe := by
    rcases hx : Enforcer.safeMetadata .sample burst with x | safe
    · rw [hx] at hsafe
      cases hsafe
    · exact ⟨safe, rfl⟩
  have hbans : unscoped.BansUnder .sample burst DEFAULT_BLOCK_SCOPES := ⟨.inl rfl, rfl⟩
  obtain ⟨summary, found, hfound, s, hs, hip⟩ :=
    (@Enforcer.reachesIp_default .sample unscoped DEFAULT_BLOCK_SCOPES rfl).mpr
      (by decide : str "ip" ∈ DEFAULT_BLOCK_SCOPES)
  obtain ⟨x, hx, hp⟩ := @Enforcer.bans_enforced Unit .sample unscoped burst summary _ found hbans hok
    hfound s hs
  obtain ⟨spec, l, hspec, hl, -⟩ := hall Unit (Enforcer.obliging Unit) summary () x hx s hp hip
  obtain rfl : ({ action := str "persist_block", action_known := by decide } : ActionSpec) = spec :=
    Option.some.inj hspec
  cases hl

end SecAudit
