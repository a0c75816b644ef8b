import SecAudit.Enforce.Matched
import SecAudit.Enforce.Permanent
import SecAudit.Enforce.Precedence

/-!
# From boot to the first request

* `resolveCustomRules`, `allRules`  the rules of the settings;
* `setupEnforcement`  what is checked at boot;
* `buildRuntime`    what the first request builds;
* `allRules_iff`    which rules are taken;
* `boot_builds_iff` when the runtime is built after a boot that went well, and what happens when it
                    is not.
-/

set_option linter.unusedVariables false

namespace SecAudit
open Py Prog

/-! ## the rules -/

/-- what is there when the settings are used: to import, to connect to, and the other runtime -/
structure BootSite extends SettingsLibrary where
  toBuiltins : Builtins
  /-- `redis.Redis.from_url` -/
  fromUrl : Str → Except Exc Unit
  /-- `get_runtime().config.logging.schema_version` -/
  loggingSchema : Except Exc {v : Str // v ≠ []}

section
variable (site : BootSite)

/-- the text of an error about an entry of `rules` -/
def entryError {α : Type} (spec : Spec) (text : Str) : Except Exc α :=
  configError (str "SEC_AUDIT_ENFORCEMENT rules entry " ++ site.reprSpec spec ++ text)

/-- the rule of an entry, or of what is imported for it -/
def ruleOf (entry : Spec) : Spec → Except Exc RuleObject
  | .ruleType make => make
  | .value (.rule r) => .ok r
  | _ => entryError site entry (str " is not a Rule subclass or instance.")

/-- the check of the name -/
def namedRule (entry : Spec) (r : RuleObject) : Except Exc Rule :=
  match r.name with
  | some (c :: name) => .ok ⟨c :: name, r.safeForEnforcement, r.eventTypes, r.contextValid⟩
  | _ => entryError site entry (str " has an empty name; a Rule must declare a non-empty `name`.")

/-- `import_string(spec) if isinstance(spec, str) else spec` -/
def imported : Spec → Except Exc Spec
  | .str path => site.importString path
  | spec => .ok spec

/-- one turn of the loop of `_resolve_custom_rules` -/
def resolveCustomRule (entry : Spec) : Except Exc Rule := do
  let obj ← imported site entry
  let rule ← ruleOf site entry obj
  namedRule site entry rule

/-- `_resolve_custom_rules` -/
def resolveCustomRules (specs : List Spec) : Except Exc (List Rule) :=
  specs.mapM (resolveCustomRule site)

/-- the loop of `_all_rules`, `seen` being the names so far -/
def distinctNames (seen : List Str) : List Rule → Except Exc Unit
  | [] => .ok ()
  | rule :: rules =>
    if rule.name ∈ seen then configError (str "Duplicate enforcement rule name " ++
      site.reprStr rule.name ++ str "; registered rule names must be unique.")
    else distinctNames (rule.name :: seen) rules

/-- `_all_rules` -/
def allRules (config : EnforcementSettings) : Except Exc (List Rule) := do
  let rules ← resolveCustomRules site config.rules
  let _ ← distinctNames site [] rules
  return rules

/-! ## boot, and the runtime -/

/-- what `setup_enforcement` does when it is enabled, before the consumer is registered -/
def checkRules (config : EnforcementSettings) : Except Exc Unit :=
  if config.enabled then (allRules site config).map fun _ => () else .ok ()

/-- `setup_enforcement`; the consumer is registered when the configuration is enabled -/
def setupEnforcement (raw : RawSettings) : Except Exc EnforcementSettings := do
  let config ← fromSettings site.toSettingsLibrary raw
  let _ ← checkRules site config
  return config

/-- `_build_detection_stores`: the counters are connected first, the history the same way -/
def buildDetectionStores (config : EnforcementSettings) : Except Exc Unit :=
  if config.redisUrl = [] then .ok ()
  else match site.fromUrl config.redisUrl with
    | .ok _ => .ok ()
    | .error e => configError (str ("Failed to initialize counter store " ++
        "'sec_audit.rules.stores.redis.RedisCounterStore': ") ++ site.excText e)

/-- `_build_block_store` -/
def buildBlockStore (config : EnforcementSettings) : Except Exc Unit :=
  if config.redisUrl = [] then .ok () else site.fromUrl config.redisUrl

/-- `_build_runtime` -/
def buildRuntime (config : EnforcementSettings) : Except Exc DjangoEnforcementRuntime := do
  let schema ← site.loggingSchema
  let registry ← buildRegistry site.toSettingsLibrary site.toBuiltins config
  let _ ← buildDetectionStores site config
  let _ ← buildBlockStore site config
  let rules ← allRules site config
  return ⟨config.config, registry, rules, schema.1, schema.2⟩

end

/-! ## what boot has checked -/

section
variable {site : BootSite} {raw : RawSettings} {config : EnforcementSettings}

theorem distinctNames_iff : ∀ {rules : List Rule} {seen : List Str},
    distinctNames site seen rules = .ok () ↔
      (rules.map Rule.name).Nodup ∧ ∀ r ∈ rules, r.name ∉ seen
  | [], seen => iff_of_true rfl ⟨List.nodup_nil, fun r hr => absurd hr List.not_mem_nil⟩
  | rule :: rules, seen => by
    unfold distinctNames
    rw [List.map_cons, List.nodup_cons, List.forall_mem_cons]
    by_cases h : rule.name ∈ seen
    · rw [if_pos h]
      exact iff_of_false (fun h' => by cases h') fun h' => h'.2.1 h
    · rw [if_neg h, distinctNames_iff]
      constructor
      · rintro ⟨hnd, hout⟩
        refine ⟨⟨fun hmem => ?_, hnd⟩, h, fun r hr hs => hout r hr (List.mem_cons_of_mem _ hs)⟩
        obtain ⟨r, hr, e⟩ := List.mem_map.mp hmem
        exact hout r hr (e ▸ List.mem_cons_self)
      · rintro ⟨⟨hmem, hnd⟩, -, hout⟩
        refine ⟨hnd, fun r hr hs => ?_⟩
        rcases List.mem_cons.mp hs with e | hs
        · exact hmem (List.mem_map.mpr ⟨r, hr, e⟩)
        · exact hout r hr hs

/-- **the rules that are taken**: each entry has a rule, and no two the same name -/
theorem allRules_iff {rules : List Rule} : allRules site config = .ok rules ↔
    resolveCustomRules site config.rules = .ok rules ∧ (rules.map Rule.name).Nodup := by
  unfold allRules
  cases hr : resolveCustomRules site config.rules with
  | error e => exact iff_of_false (fun h => by cases h) fun h => by cases h.1
  | ok found =>
    show (distinctNames site [] found >>= fun _ => Except.ok found) = _ ↔ _
    cases hd : distinctNames site [] found with
    | error e =>
      refine iff_of_false (fun h => by cases h) ?_
      rintro ⟨h, hnd⟩
      obtain rfl := Except.ok.inj h
      rw [distinctNames_iff.mpr ⟨hnd, fun r _ => List.not_mem_nil⟩] at hd
      cases hd
    | ok u =>
      constructor
      · intro h
        obtain rfl := Except.ok.inj h
        exact ⟨rfl, (distinctNames_iff.mp hd).1⟩
      · exact fun h => h.1

theorem mapM_forall {α β : Type} {f : α → Except Exc β} {P : β → Prop}
    (hf : ∀ a b, f a = .ok b → P b) : ∀ {l : List α} {l' : List β}, l.mapM f = .ok l' →
    ∀ b ∈ l', P b
  | [], l', h => by
    obtain rfl : [] = l' := Except.ok.inj h
    exact fun b hb => absurd hb List.not_mem_nil
  | a :: l, l', h => by
    rw [List.mapM_cons] at h
    obtain ⟨b, hb, h⟩ := ok_of_bind h
    obtain ⟨rest, hr, h⟩ := ok_of_bind h
    obtain rfl := Except.ok.inj h
    exact List.forall_mem_cons.mpr ⟨hf a b hb, mapM_forall hf hr⟩

theorem namedRule_ne {entry : Spec} {r : RuleObject} {rule : Rule}
    (h : namedRule site entry r = .ok rule) : rule.name ≠ [] := by
  unfold namedRule at h
  split at h
  · obtain rfl := Except.ok.inj h
    exact List.cons_ne_nil _ _
  · cases h

theorem resolved_ne {rules : List Rule} (h : resolveCustomRules site config.rules = .ok rules) :
    ∀ r ∈ rules, r.name ≠ [] := by
  refine mapM_forall (fun entry rule h => ?_) h
  obtain ⟨obj, -, h⟩ := ok_of_bind h
  obtain ⟨r, -, h⟩ := ok_of_bind h
  exact namedRule_ne h

/-- boot has found the rules -/
theorem rules_of_setup (h : setupEnforcement site raw = .ok config) (he : config.enabled = true) :
    ∃ rules, allRules site config = .ok rules := by
  obtain ⟨c, -, h⟩ := ok_of_bind h
  obtain ⟨u, hu, h⟩ := ok_of_bind h
  obtain rfl := Except.ok.inj h
  unfold checkRules at hu
  rw [if_pos he] at hu
  cases hr : allRules site c with
  | error e =>
    rw [hr] at hu
    cases hu
  | ok rules => exact ⟨rules, rfl⟩

/-- the registry of the settings: the custom scopes are there, with names of their own -/
theorem buildRegistry_isOk :
    (∃ r, buildRegistry site.toSettingsLibrary site.toBuiltins config = .ok r) ↔
    ∃ custom, config.scopeSpecs.mapM (coerceSpec site.toSettingsLibrary) = .ok custom ∧
      ((DEFAULT_SCOPE_DEFINITIONS site.toBuiltins ++ custom).map ScopeDefinition.name).Nodup := by
  constructor
  · rintro ⟨r, hr⟩
    obtain ⟨plain, hp, -⟩ := definitions_buildRegistry.mp hr
    obtain ⟨custom, hc, hp⟩ := ok_of_bind hp
    exact ⟨custom, hc, (make_iff.mp hp).1⟩
  · rintro ⟨custom, hc, hnd⟩
    have hp : registryFrom site.toSettingsLibrary site.toBuiltins config.scopeSpecs
        = .ok ⟨_, hnd⟩ := by
      unfold registryFrom
      rw [hc]
      exact make_iff.mpr ⟨hnd, rfl⟩
    refine ⟨⟨_, ?_⟩, definitions_buildRegistry.mpr ⟨_, hp, rfl⟩⟩
    exact ((reorder_perm hnd).map ScopeDefinition.name).nodup_iff.mpr hnd

theorem stores_isOk : (buildDetectionStores site config = .ok () ∧
    buildBlockStore site config = .ok ()) ↔
      (config.redisUrl ≠ [] → site.fromUrl config.redisUrl = .ok ()) := by
  unfold buildDetectionStores buildBlockStore
  by_cases hu : config.redisUrl = []
  · rw [if_pos hu, if_pos hu]
    exact iff_of_true ⟨rfl, rfl⟩ fun h => absurd hu h
  · rw [if_neg hu, if_neg hu]
    cases hx : site.fromUrl config.redisUrl with
    | error e => exact iff_of_false (fun h => by cases h.2) fun h => by cases h hu
    | ok u => exact iff_of_true ⟨rfl, rfl⟩ fun _ => rfl

theorem buildRuntime_ok {rt : DjangoEnforcementRuntime} (h : buildRuntime site config = .ok rt) :
    rt.config = config.config ∧ allRules site config = .ok rt.rules ∧
      buildRegistry site.toSettingsLibrary site.toBuiltins config = .ok rt.scopeRegistry ∧
      (∃ v, site.loggingSchema = .ok v) ∧ buildDetectionStores site config = .ok () ∧
      buildBlockStore site config = .ok () := by
  obtain ⟨schema, hs, h⟩ := ok_of_bind h
  obtain ⟨registry, hr, h⟩ := ok_of_bind h
  obtain ⟨u, hd, h⟩ := ok_of_bind h
  obtain ⟨u', hb, h⟩ := ok_of_bind h
  obtain ⟨rules, ha, h⟩ := ok_of_bind h
  obtain rfl := Except.ok.inj h
  exact ⟨rfl, ha, hr, ⟨schema, hs⟩, hd, hb⟩

/-- **after a boot with enforcement enabled**: the first request builds the runtime exactly when the
logging runtime is there, the custom scopes are, with names of their own, and the URL of Redis can be
read; its rules have names of their own, which boot has checked; and where it is not built, no request
is enforced -/
theorem boot_builds_iff (h : setupEnforcement site raw = .ok config) (he : config.enabled = true) :
    ((∃ rt, buildRuntime site config = .ok rt) ↔
      (∃ v, site.loggingSchema = .ok v) ∧
      (∃ custom, config.scopeSpecs.mapM (coerceSpec site.toSettingsLibrary) = .ok custom ∧
        ((DEFAULT_SCOPE_DEFINITIONS site.toBuiltins ++ custom).map ScopeDefinition.name).Nodup) ∧
      (config.redisUrl ≠ [] → site.fromUrl config.redisUrl = .ok ())) ∧
    (∀ rt, buildRuntime site config = .ok rt → rt.config = config.config ∧
      (rt.rules.map Rule.name).Nodup ∧ ∀ rule ∈ rt.rules, rule.name ≠ []) ∧
    ∀ x, buildRuntime site config = .error x → ∀ {Response : Type} (http : HttpResponses Response)
      (py : Interp) {lib : IpLibrary} (django : DjangoAuditConfig lib) (request : Request),
      enforcementMiddleware http py django request (buildRuntime site config)
        = perform .getResponse := by
  refine ⟨⟨?_, ?_⟩, ?_, ?_⟩
  · rintro ⟨rt, hrt⟩
    obtain ⟨-, -, hr, hs, hd, hb⟩ := buildRuntime_ok hrt
    exact ⟨hs, buildRegistry_isOk.mp ⟨_, hr⟩, stores_isOk.mp ⟨hd, hb⟩⟩
  · rintro ⟨⟨v, hv⟩, hc, hu⟩
    obtain ⟨rules, hrules⟩ := rules_of_setup h he
    obtain ⟨r, hr⟩ := buildRegistry_isOk.mpr hc
    obtain ⟨hd, hb⟩ := stores_isOk.mpr hu
    unfold buildRuntime
    rw [hv, hr, hd, hb, hrules]
    exact ⟨_, rfl⟩
  · intro rt hrt
    obtain ⟨hc, ha, -⟩ := buildRuntime_ok hrt
    obtain ⟨hres, hnd⟩ := allRules_iff.mp ha
    exact ⟨hc, hnd, resolved_ne hres⟩
  · intro x hx Response http py lib django request
    rw [hx]
    rfl

end

/-! ## a scope that is defined twice -/

/-- a site where nothing fails -/
def BootSite.sample : BootSite where
  toSettingsLibrary := .sample
  toBuiltins := .sample
  fromUrl _ := .ok ()
  loggingSchema := .ok ⟨str "1.0", schemaOne_ne⟩

/-- settings with one rule, and more -/
def guardedBy (more : List (Str × Setting)) : List (Str × Setting) :=
  [(str "enabled", .bool true),
    (str "rules", .seq [.ruleType (.ok { name := some (str "login_throttle") })])] ++ more

/-- another definition of `ip` -/
def twoAddresses : List (Str × Setting) :=
  guardedBy [(str "scope_specs",
    .seq [.value (.definition ⟨str "ip", unnamedExtractor, true⟩)])]

theorem twoAddresses_nodup : (twoAddresses.map Prod.fst).Nodup := by decide

/-- such a boot goes well, and then no request is enforced -/
theorem boot_builds_none : ∃ config x,
    setupEnforcement .sample (.mapping ⟨twoAddresses, twoAddresses_nodup⟩) = .ok config ∧
    buildRuntime .sample config = .error x ∧
    ∀ {Response : Type} (http : HttpResponses Response) (py : Interp) {lib : IpLibrary}
      (django : DjangoAuditConfig lib) (request : Request),
      enforcementMiddleware http py django request (buildRuntime .sample config)
        = perform .getResponse := by
  have h : ((setupEnforcement .sample (.mapping ⟨twoAddresses, twoAddresses_nodup⟩)).toOption.any
      fun config => config.enabled && (buildRuntime .sample config).toOption.isNone) = true := by
    decide +kernel
  obtain ⟨config, hc, h⟩ := (Option.any_eq_true _ _).mp h
  obtain ⟨he, hnone⟩ := Bool.and_eq_true_iff.mp h
  cases hb : buildRuntime .sample config with
  | ok rt =>
    rw [hb] at hnone
    cases hnone
  | error x =>
    exact ⟨config, x, ok_of_toOption hc, hb, (boot_builds_iff (ok_of_toOption hc) he).2.2 x hb⟩

end SecAudit
