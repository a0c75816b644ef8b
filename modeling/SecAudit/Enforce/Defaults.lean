import SecAudit.Enforce.Boot

/-!
# The default actions

* `BuiltIn`         a built-in rule that the operator has given no action;
* `default_entry`   its entry is the default one;
* `default_never_bans`  no match of it bans an address for good;
* `default_actions_safe`  with such rules alone, nothing that happens bans an address for good.
-/

set_option linter.unusedVariables false

namespace SecAudit
open Py Prog

/-! ## the entries -/

section
variable {lib : SettingsLibrary} {raw : Dict Str Setting} {given : List (Key × Value)}

/-- a built-in rule, which the mapping `given` does not name -/
def BuiltIn (given : List (Key × Value)) (name : Str) : Prop :=
  name ∈ DEFAULT_RULE_ACTIONS.map Prod.fst ∧ entryOf name given = none

theorem settingsWith_enforcement {enforcement : EnforcementAuditConfig} {c : EnforcementSettings}
    (h : settingsWith lib raw enforcement = .ok c) : c.enforcement = enforcement := by
  iterate 18 obtain ⟨_, -, h⟩ := ok_of_bind h
  obtain rfl := Except.ok.inj h
  rfl

/-- the actions of a configuration are the default ones under those given -/
theorem ruleActions_fromMapping {c : EnforcementSettings} (h : fromMapping lib raw = .ok c)
    (hg : Setting.asDict lib (rawGet raw (str "rule_actions") (.mapping [])) = .ok given) :
    validateRuleActions lib.toConfigObjects (some (rawActions (withDefaults given)))
      = .ok c.enforcement.ruleActions := by
  obtain ⟨u, -, h⟩ := ok_of_bind h
  obtain ⟨e, he, h⟩ := ok_of_bind h
  rw [settingsWith_enforcement h]
  obtain ⟨actions, ha, he⟩ := ok_of_bind he
  obtain ⟨status, -, he⟩ := ok_of_bind he
  obtain ⟨message, -, he⟩ := ok_of_bind he
  obtain ⟨rules, -, he⟩ := ok_of_bind he
  obtain rfl := Except.ok.inj (hg.symm.trans ha)
  obtain ⟨severity, -, he⟩ := ok_of_bind he
  obtain ⟨status', -, he⟩ := ok_of_bind he
  obtain ⟨rules', -, he⟩ := ok_of_bind he
  obtain ⟨parsed, hp, he⟩ := ok_of_bind he
  obtain rfl := Except.ok.inj he
  exact hp

theorem default_kinds : ∀ d ∈ DEFAULT_RULE_ACTIONS,
    d.2 = actionWith (str "temp_block") [str "ip"] ∨
      d.2 = actionWith (str "persist_block") [str "user", str "session"] := by
  intro d hd
  simp only [DEFAULT_RULE_ACTIONS, List.mem_cons, List.not_mem_nil, or_false] at hd
  rcases hd with rfl | rfl | rfl | rfl | rfl | rfl | rfl
  · exact .inl rfl
  · exact .inl rfl
  · exact .inl rfl
  · exact .inl rfl
  · exact .inl rfl
  · exact .inr rfl
  · exact .inl rfl

/-- **the entry of a built-in rule**: a temporary block of the address, or a permanent one of the
user and the session -/
theorem default_entry {c : EnforcementSettings} {name : Str} (h : fromMapping lib raw = .ok c)
    (hg : Setting.asDict lib (rawGet raw (str "rule_actions") (.mapping [])) = .ok given)
    (hb : BuiltIn given name) : ∃ spec, getItem name c.config.ruleActions = some spec ∧
      ((spec.action = str "temp_block" ∧ spec.scopes = some (.ok [str "ip"])) ∨
        (spec.action = str "persist_block" ∧
          spec.scopes = some (.ok [str "user", str "session"]))) := by
  obtain ⟨hname, hnone⟩ := hb
  obtain ⟨d, hd, rfl⟩ := List.mem_map.mp hname
  have hget := getItem_parseEntries d.1 (fun k v e hv => (validateRuleAction_ok hv).1)
    (ruleActions_fromMapping h hg)
  rw [entryOf_withDefaults hnone hd] at hget
  obtain ⟨spec, hspec, hs⟩ := hget
  have hacc := (validateRuleAction_ok hspec).2
  refine ⟨spec, hs, (default_kinds d hd).imp (fun e => ?_) fun e => ?_⟩
  · rw [e] at hacc
    exact accepted_actionWith (List.cons_ne_nil _ _) hacc
  · rw [e] at hacc
    exact accepted_actionWith (List.cons_ne_nil _ _) hacc

end

/-! ## what is banned -/

section
variable {site : BootSite} {config : EnforcementSettings} {r : ScopeRegistry}

/-- a default definition keeps its name to itself -/
theorem default_definition
    (h : buildRegistry site.toSettingsLibrary site.toBuiltins config = .ok r)
    {d d₀ : ScopeDefinition} (hd : d ∈ r.definitions)
    (h₀ : d₀ ∈ DEFAULT_SCOPE_DEFINITIONS site.toBuiltins) (hname : d.name = d₀.name) : d = d₀ := by
  obtain ⟨plain, hp, hdef⟩ := definitions_buildRegistry.mp h
  obtain ⟨custom, -, hp⟩ := ok_of_bind hp
  have hmem : d₀ ∈ r.definitions := by
    rw [hdef, (reorder_perm plain.nodup).mem_iff, (make_iff.mp hp).2]
    exact List.mem_append_left _ h₀
  exact List.inj_on_of_nodup_map r.nodup hd hmem hname

/-- the scopes found under the names `user` and `session` are no addresses -/
theorem user_session_scopes
    (h : buildRegistry site.toSettingsLibrary site.toBuiltins config = .ok r) {summary : Summary}
    {found : List BlockScope}
    (hf : r.blockScopes summary (some [str "user", str "session"]) = .ok found) :
    ∀ s ∈ found, s.scopeType ≠ str "ip" := by
  intro s hs
  obtain ⟨k, ⟨d, hd, -, hallowed, l, hl, hk⟩, rfl⟩ := (mem_blockScopes hf s).mp hs
  have hname : d.name ∈ [str "user", str "session"] := of_decide_eq_true hallowed
  have hown : ∃ d₀ ∈ DEFAULT_SCOPE_DEFINITIONS site.toBuiltins, d = d₀ := by
    rcases List.mem_cons.mp hname with e | hname
    · exact ⟨_, List.mem_cons_self, default_definition h hd List.mem_cons_self e⟩
    · have e := List.mem_singleton.mp hname
      have hsession : _ ∈ DEFAULT_SCOPE_DEFINITIONS site.toBuiltins :=
        List.mem_cons_of_mem _ List.mem_cons_self
      exact ⟨_, hsession, default_definition h hd hsession e⟩
  obtain ⟨d₀, h₀, rfl⟩ := hown
  obtain ⟨hdecl, hone⟩ := default_declares site.toBuiltins d h₀
  have hscope := hdecl summary l hl k hk
  rw [hone, List.mem_singleton] at hscope
  show k.scope ≠ str "ip"
  rw [hscope]
  intro e
  rw [e] at hname
  exact absurd hname (by decide)

variable {Response : Type} {raw : Dict Str Setting} {given : List (Key × Value)}
  {rt : DjangoEnforcementRuntime} {py : Interp}

/-- a call that bans an address for good -/
def BansAddress {β : Type} (c : Eff Response β) : Prop :=
  ∃ s ∈ Enforcer.permanentScope c, s.scopeType = str "ip"

/-- **a match of a built-in rule** bans no address for good, whatever it says -/
theorem default_never_bans (h : fromMapping site.toSettingsLibrary raw = .ok config)
    (hg : Setting.asDict site.toSettingsLibrary (rawGet raw (str "rule_actions") (.mapping []))
      = .ok given) (hrt : buildRuntime site config = .ok rt) {m : RuleMatch}
    (hm : BuiltIn given m.ruleName) (summary : Summary) :
    Only (fun β (c : Eff Response β) => ¬ BansAddress c) (rt.enforcer.enforce py m summary) := by
  obtain ⟨hconfig, -, hregistry, -⟩ := buildRuntime_ok hrt
  obtain ⟨spec, hspec, hkind⟩ := default_entry h hg hm
  unfold Enforcer.enforce
  refine Only.ofExcept fun action ha => Enforcer.only_apply.mono fun β c hc => ?_
  rintro ⟨s, hs, hip⟩
  obtain ⟨hperm, -, found, hf, hmem⟩ := hc s hs
  have hentry : getItem m.ruleName rt.enforcer.ruleActions = some spec := by
    show getItem m.ruleName rt.config.ruleActions = some spec
    rw [hconfig]
    exact hspec
  unfold Enforcer.resolveAction resolveRuleAction at ha
  rw [hentry] at ha
  obtain ⟨l, hl, rfl⟩ := Enforcer.configured_ok.mp ha
  have hesc := Enforcer.kind_escalates.mp hperm
  rcases hkind with ⟨e, -⟩ | ⟨-, e⟩
  · rw [show (RuleAction.mk spec.action spec.ttl l spec.statusCode spec.message).action
      = str "temp_block" from e] at hesc
    exact Enforcer.not_escalates_temp hesc
  · rw [e] at hl
    obtain rfl := Except.ok.inj hl
    exact user_session_scopes hregistry hf s hmem hip

/-! ## whatever happens -/

/-- a match has the name of its rule -/
def NamesRule : Replies (Eff Response) Exc
  | _, .ruleEvaluate rule _ _, .ok (.found m) => m.ruleName = rule.name
  | _, _, _ => True

/-- **with built-in rules alone** that the operator has given no actions: no event that is recorded
and no request bans an address for good, whatever the rules find, whatever fails, and whoever else
is served meanwhile -/
theorem default_actions_safe (h : fromMapping site.toSettingsLibrary raw = .ok config)
    (hg : Setting.asDict site.toSettingsLibrary (rawGet raw (str "rule_actions") (.mapping []))
      = .ok given) (hrt : buildRuntime site config = .ok rt)
    (hrules : ∀ rule ∈ rt.rules, BuiltIn given rule.name) :
    (∀ (event : AuditEvent) {t : List (Happening Response)} {q : Routine Response Unit},
      Steps NamesRule (consume py (.ok rt) event) t q → ∀ x ∈ t, ¬ BansAddress x.cmd) ∧
    ∀ (http : HttpResponses Response) {lib : IpLibrary} (django : DjangoAuditConfig lib)
      (request : Request) {t : List (Happening Response)} {q : Routine Response Response},
      Steps NamesRule (enforcementMiddleware http py django request (.ok rt)) t q →
        ∀ x ∈ t, ¬ BansAddress x.cmd := by
  have hnone : ∀ {β : Type} {c : Eff Response β}, Enforcer.permanentScope c = none →
      ¬ BansAddress c := by
    rintro β c hc ⟨s, hs, -⟩
    rw [hc] at hs
    exact Option.not_mem_none s hs
  have henforces : Enforces py rt (@NamesRule Response) (fun β c => ¬ BansAddress c)
      (fun m => BuiltIn given m.ruleName) :=
    { expected := fun rule hrule event ctx m (hm : m.ruleName = rule.name) =>
        hm.symm ▸ hrules rule hrule
      enforced := fun m hm summary => default_never_bans h hg hrt hm summary
      rules := ⟨hnone rfl, fun _ _ _ => hnone rfl, fun _ _ _ => hnone rfl, fun _ _ _ => hnone rfl⟩
      timeNs := hnone rfl
      emit := fun _ _ => hnone rfl
      firstActive := fun _ => hnone rfl
      getResponse := hnone rfl }
  exact ⟨fun event t q hs => (stays_consume henforces event).steps hs,
    fun http lib django request t q hs => (stays_middleware henforces).steps hs⟩

end

/-! ## one built-in rule -/

theorem guarded_nodup : ((guardedBy []).map Prod.fst).Nodup := by decide

/-- the settings of one built-in rule -/
def guarded : Dict Str Setting := ⟨guardedBy [], guarded_nodup⟩

theorem default_actions_safe_login : ∃ config rt,
    fromMapping SettingsLibrary.sample guarded = .ok config ∧
    buildRuntime .sample config = .ok rt ∧ rt.rules.map Rule.name = [str "login_throttle"] ∧
    ∀ (event : AuditEvent) {t : List (Happening Unit)} {q : Routine Unit Unit},
      Steps NamesRule (consume .sample (.ok rt) event) t q → ∀ x ∈ t, ¬ BansAddress x.cmd := by
  have h : ((fromMapping SettingsLibrary.sample guarded).toOption.any fun config =>
      (buildRuntime .sample config).toOption.any fun rt =>
        decide (rt.rules.map Rule.name = [str "login_throttle"])) = true := by decide +kernel
  obtain ⟨config, hc, h⟩ := (Option.any_eq_true _ _).mp h
  obtain ⟨rt, hrt, h⟩ := (Option.any_eq_true _ _).mp h
  have hnames := of_decide_eq_true h
  refine ⟨config, rt, ok_of_toOption hc, ok_of_toOption hrt, hnames, ?_⟩
  have hsafe := @default_actions_safe .sample config Unit guarded [] rt .sample
    (ok_of_toOption hc) rfl (ok_of_toOption hrt) fun rule hrule => by
      have hmem := List.mem_map_of_mem (f := Rule.name) hrule
      rw [hnames, List.mem_singleton] at hmem
      rw [hmem]
      exact ⟨by decide, rfl⟩
  exact hsafe.1

end SecAudit
