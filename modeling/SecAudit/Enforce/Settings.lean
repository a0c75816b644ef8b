import SecAudit.Data.Dict
import SecAudit.Enforce.Policy
import SecAudit.Enforce.Runtime
import SecAudit.Rules.Restriction

/-!
# The settings of the enforcement

* `Spec`, `Setting`  the objects that stand in `SEC_AUDIT_ENFORCEMENT`;
* `boolValue`, `intValue`, `strValue`, `sequence`, `strTuple`, `regexTuple`, `importableTuple`  the
                    checks of one setting;
* `DEFAULT_RULE_ACTIONS`, `withDefaults`  the actions for the built-in rules, under those of the
                    operator;
* `EnforcementAuditConfig`, `EnforcementSettings`  a configuration that was accepted;
* `fromSettings`    what is made of the settings;
* `entryOf_withDefaults`  a built-in rule has its default action, unless it is given one.
-/

set_option linter.unusedVariables false

namespace SecAudit
open Py Prog

/-! ## what is in the settings -/

/-- a `Rule`; `name` is `none` when it is no `str` -/
structure RuleObject where
  name : Option Str
  safeForEnforcement : Bool := false
  eventTypes : Option (List Str) := none
  contextValid : Bool := true

/-- an object that is neither a string, a pattern nor a class -/
inductive Instance where
  | rule (r : RuleObject)
  | definition (d : ScopeDefinition)
  /-- anything else, with its `scope_names` -/
  | other (x : HistoryScopeExtractor)

/-- an object in a sequence of the settings, or one that is imported -/
inductive Spec where
  | str (s : Str)
  /-- a compiled pattern, by its `search` -/
  | pattern (search : Str → Bool)
  /-- a class of rules, by what a call of it does -/
  | ruleType (make : Except Exc RuleObject)
  /-- any other class -/
  | type (make : Except Exc Instance)
  | value (x : Instance)

inductive Setting where
  | none
  | bool (b : Bool)
  | int (i : Int)
  | str (s : Str)
  | mapping (items : List (Key × Value))
  /-- any other object that can be iterated over -/
  | seq (items : List Spec)
  | other

/-- what is used of Python and of the objects in the settings -/
structure SettingsLibrary extends ConfigObjects where
  reprStr : Str → Str
  /-- `re.compile`, by the `search` of the pattern, or the text of the `re.error` -/
  compile : Str → Except Str (Str → Bool)
  /-- `dict(v)`, of anything but a mapping -/
  dictOf : Setting → Except Exc (List (Key × Value))
  /-- `import_string` -/
  importString : Str → Except Exc Spec
  reprSpec : Spec → Str
  reprExtractor : HistoryScopeExtractor → Str
  /-- `str(exc)` -/
  excText : Exc → Str
  scopes_texts : ∀ l : List Str, l ≠ [] → scopes (.seq (l.map .str)) = some (.ok l)

/-! ## the checks of one setting -/

namespace Setting

section
variable (lib : SettingsLibrary) (name : Str)

def boolValue : Setting → Except Exc Bool
  | .bool b => .ok b
  | _ => configError (name ++ Py.str " must be a bool.")

def intValue : Setting → Except Exc Int
  | .int i => .ok i
  | _ => configError (name ++ Py.str " must be an int.")

def strValue : Setting → Except Exc Str
  | .str s => .ok s
  | _ => configError (name ++ Py.str " must be a str.")

/-- a key of a mapping, as an item of it -/
def ofKey : Key → Spec
  | .str s => .str s
  | .other _ => .value (.other ⟨[], fun _ => .error .typeError⟩)

def sequence : Setting → Except Exc (List Spec)
  | .seq items => .ok items
  | .mapping items => .ok (items.map fun p => ofKey p.1)
  | _ => configError (name ++ Py.str " must be a sequence.")

/-- the item, when it is a `str` -/
def text : Spec → Option Str
  | .str s => some s
  | _ => .none

/-- the strings, when all the items are strings -/
def texts : List Spec → Option (List Str)
  | [] => some []
  | spec :: l => (text spec).bind fun s => (texts l).map (s :: ·)

def strTuple (v : Setting) : Except Exc (List Str) := do
  let items ← sequence name v
  match texts items with
  | some l => .ok l
  | .none => configError (name ++ Py.str " must contain only str values.")

/-- one turn of the loop of `regex_tuple` -/
def regex : Spec → Except Exc (Str → Bool)
  | .pattern search => .ok search
  | .str s => match lib.compile s with
    | .ok search => .ok search
    | .error text => configError (name ++ Py.str " contains malformed regex " ++ lib.reprStr s ++
        Py.str ": " ++ text ++ Py.str ".")
  | _ => configError (name ++ Py.str " must contain regex strings or compiled patterns.")

def regexTuple (v : Setting) : Except Exc (List (Str → Bool)) := do
  let items ← sequence name v
  items.mapM (regex lib name)

/-- `path.rpartition('.')` has a text on each side -/
def dotted (path : Str) : Bool :=
  match path.reverse.dropWhile fun c => decide (c ≠ cp '.') with
  | [] => false
  | _ :: before => !before.isEmpty && decide (path.getLast? ≠ some (cp '.'))

def importPathShape (path : Str) : Except Exc Unit :=
  if dotted path then .ok ()
  else configError (name ++ Py.str " import path must be \"module.attr\", got " ++
    lib.reprStr path ++ Py.str ".")

/-- one turn of the loop of `importable_tuple` -/
def importable : Spec → Except Exc Unit
  | .str path => importPathShape lib name path
  | _ => .ok ()

def importableTuple (v : Setting) : Except Exc (List Spec) := do
  let specs ← sequence name v
  let _ ← specs.mapM (importable lib name)
  return specs

/-- `dict(v)` -/
def asDict : Setting → Except Exc (List (Key × Value))
  | .mapping items => .ok items
  | v => lib.dictOf v

end

end Setting

/-! ## the actions for rules -/

/-- a mapping that names an action and its scopes -/
def actionWith (action : Str) (scopes : List Str) : Value :=
  .mapping [(.str (str "action"), .str action), (.str (str "scopes"), .seq (scopes.map .str))]

def DEFAULT_RULE_ACTIONS : List (Str × Value) :=
  [(str "brute_force_login", actionWith (str "temp_block") [str "ip"]),
    (str "login_throttle", actionWith (str "temp_block") [str "ip"]),
    (str "repeated_client_error", actionWith (str "temp_block") [str "ip"]),
    (str "repeated_route", actionWith (str "temp_block") [str "ip"]),
    (str "request_body_threshold", actionWith (str "temp_block") [str "ip"]),
    (str "sensitive_field_change", actionWith (str "persist_block") [str "user", str "session"]),
    (str "suspicious_proxy_header", actionWith (str "temp_block") [str "ip"])]

/-- `{**DEFAULT_RULE_ACTIONS, **given}` -/
def withDefaults (given : List (Key × Value)) : List (Key × Value) :=
  (DEFAULT_RULE_ACTIONS.map fun d => (Key.str d.1, (metadataItem d.1 given).getD d.2)) ++
    given.filter fun p => match p.1 with
      | .str s => decide (s ∉ DEFAULT_RULE_ACTIONS.map Prod.fst)
      | .other _ => true

def RawAction.of : Value → RawAction
  | .str action => .str action
  | .mapping items => .mapping items
  | _ => .other

def rawActions (items : List (Key × Value)) : List (Key × RawAction) :=
  items.map fun p => (p.1, .of p.2)

/-! ## what is accepted -/

/-- the fields that are read; `block_cache_ttl` is none of them -/
structure EnforcementAuditConfig where
  enforcementBlockSeverity : Option Int := none
  enforcementStatusCode : Int
  enforcementMessage : Str
  blockRules : List (Str × BlockRule)
  ruleActions : List (Str × ActionSpec)
  severity_range : ∀ n ∈ enforcementBlockSeverity, 0 ≤ n ∧ n ≤ 10
  status_range : 100 ≤ enforcementStatusCode ∧ enforcementStatusCode ≤ 599

/-- a `DjangoEnforcementConfig`, whole -/
structure EnforcementSettings where
  enabled : Bool
  failOpen : Bool
  failClosedPaths : List (Str → Bool)
  redisUrl : Str
  requireRedis : Bool
  permanentTierEnabled : Bool
  permanentCacheTtl : Int
  defaultTempTtl : Int
  evalSafeOnIngress : Bool
  applyViaSink : Bool
  scopeSpecs : List Spec
  rules : List Spec
  blockPrecedence : List Str
  statusCode : Int
  message : Str
  enforcement : EnforcementAuditConfig
  cacheTtl_pos : 0 < permanentCacheTtl
  tempTtl_pos : 0 < defaultTempTtl
  redis_given : requireRedis = true → enabled = true → redisUrl ≠ []

/-- what the enforcer, the engine and the middleware read of it -/
def EnforcementSettings.config (c : EnforcementSettings) : DjangoEnforcementConfig where
  enabled := c.enabled
  failOpen := c.failOpen
  failClosedPaths := c.failClosedPaths
  defaultTempTtl := c.defaultTempTtl
  evalSafeOnIngress := c.evalSafeOnIngress
  applyViaSink := c.applyViaSink
  statusCode := c.statusCode
  message := c.message
  blockSeverity := c.enforcement.enforcementBlockSeverity
  ruleActions := c.enforcement.ruleActions
  blockRules := c.enforcement.blockRules
  tempTtl_pos := c.tempTtl_pos

section
variable (objects : ConfigObjects)

theorem noSeverity_range : ∀ n ∈ (none : Option Int), 0 ≤ n ∧ n ≤ 10 :=
  fun _ h => absurd h (Option.not_mem_none _)

def severityInRange (n : Int) : Except Exc {n : Option Int // ∀ k ∈ n, 0 ≤ k ∧ k ≤ 10} :=
  if h : 0 ≤ n ∧ n ≤ 10 then .ok ⟨some n, fun k hk => Option.mem_some_iff.mp hk ▸ h⟩
  else configError (str "enforcement_block_severity must be None or between 0 and 10.")

def blockSeverity : Setting → Except Exc {n : Option Int // ∀ k ∈ n, 0 ≤ k ∧ k ≤ 10}
  | .none => .ok ⟨none, noSeverity_range⟩
  | v => do
    let n ← Setting.intValue (str "enforcement_block_severity") v
    severityInRange n

def statusInRange (n : Int) : Except Exc {n : Int // 100 ≤ n ∧ n ≤ 599} :=
  if h : 100 ≤ n ∧ n ≤ 599 then .ok ⟨n, h⟩
  else configError (str "enforcement_status_code must be an HTTP status code.")

/-- `EnforcementAuditConfig(..)` -/
def EnforcementAuditConfig.make (severity : Setting) (status : Int) (message : Str)
    (blockRules ruleActions : List (Key × Value)) : Except Exc EnforcementAuditConfig := do
  let severity ← SecAudit.blockSeverity severity
  let status ← statusInRange status
  let rules ← validateBlockRules (some blockRules)
  let actions ← validateRuleActions objects (some (rawActions ruleActions))
  return ⟨severity.1, status.1, message, rules, actions, severity.2, status.2⟩

end

/-- the check that a ttl is positive -/
def positive (name : Str) (n : Int) : Except Exc {n : Int // 0 < n} :=
  if h : 0 < n then .ok ⟨n, h⟩ else configError (name ++ str " must be positive.")

def redisGiven (requireRedis enabled : Bool) (url : Str) :
    Except Exc {url : Str // requireRedis = true → enabled = true → url ≠ []} :=
  if h : requireRedis = true → enabled = true → url ≠ [] then .ok ⟨url, h⟩
  else configError (str ("require_redis is set but redis_url is empty while enforcement is " ++
    "enabled; refusing the per-process in-memory fallback (it splits " ++
    "state per worker and under-counts on a multi-worker deploy)."))

/-! ## from the settings -/

def KNOWN_KEYS : List Str :=
  [str "enabled", str "fail_open", str "fail_closed_paths", str "redis_url", str "require_redis",
    str "permanent_tier_enabled", str "permanent_cache_ttl", str "default_temp_ttl",
    str "eval_safe_on_ingress", str "apply_via_sink", str "scope_specs", str "block_precedence",
    str "status_code", str "message", str "block_severity", str "rule_actions", str "block_rules",
    str "rules"]

/-- `SEC_AUDIT_ENFORCEMENT`; a mapping has keys that are strings -/
inductive RawSettings where
  | none
  | config (c : EnforcementSettings)
  | mapping (items : Dict Str Setting)
  | other

section
variable (lib : SettingsLibrary) (raw : Dict Str Setting)

/-- `raw.get(key, default)` -/
def rawGet (key : Str) (default : Setting) : Setting := (raw.get key).getD default

/-- the check of a `bool`, for the setting under its own name -/
def boolSetting (key : Str) (default : Bool) : Except Exc Bool :=
  Setting.boolValue key (rawGet raw key (.bool default))

def intSetting (key : Str) (default : Int) : Except Exc Int :=
  Setting.intValue key (rawGet raw key (.int default))

def strSetting (key : Str) (default : Str) : Except Exc Str :=
  Setting.strValue key (rawGet raw key (.str default))

def noUnknown : Except Exc Unit :=
  match (raw.keys.filter fun k => decide (k ∉ KNOWN_KEYS)).insertionSort (· ≤ ·) with
  | [] => .ok ()
  | unknown => configError (str "Unknown SEC_AUDIT_ENFORCEMENT key(s): " ++
      (str ", ").intercalate unknown ++ str ".")

/-- the `EnforcementAuditConfig` of the settings -/
def enforcementFrom : Except Exc EnforcementAuditConfig := do
  let actions ← Setting.asDict lib (rawGet raw (str "rule_actions") (.mapping []))
  let status ← intSetting raw (str "status_code") 429
  let message ← strSetting raw (str "message") defaultBlockMessage
  let rules ← Setting.asDict lib (rawGet raw (str "block_rules") (.mapping []))
  EnforcementAuditConfig.make lib.toConfigObjects (rawGet raw (str "block_severity") .none) status
    message rules (withDefaults actions)

/-- the end of `from_settings`, and the checks of `DjangoEnforcementConfig` -/
def settingsWith (enforcement : EnforcementAuditConfig) : Except Exc EnforcementSettings := do
  let enabled ← boolSetting raw (str "enabled") false
  let failOpen ← boolSetting raw (str "fail_open") true
  let failClosedPaths ← Setting.regexTuple lib (str "fail_closed_paths")
    (rawGet raw (str "fail_closed_paths") (.seq []))
  let redisUrl ← strSetting raw (str "redis_url") []
  let requireRedis ← boolSetting raw (str "require_redis") false
  let permanentTierEnabled ← boolSetting raw (str "permanent_tier_enabled") true
  let permanentCacheTtl ← intSetting raw (str "permanent_cache_ttl") 3600
  let defaultTempTtl ← intSetting raw (str "default_temp_ttl") 300
  let evalSafeOnIngress ← boolSetting raw (str "eval_safe_on_ingress") true
  let applyViaSink ← boolSetting raw (str "apply_via_sink") false
  let scopeSpecs ← Setting.sequence (str "scope_specs") (rawGet raw (str "scope_specs") (.seq []))
  let rules ← Setting.importableTuple lib (str "rules") (rawGet raw (str "rules") (.seq []))
  let blockPrecedence ← Setting.strTuple (str "block_precedence")
    (rawGet raw (str "block_precedence") (.seq []))
  let statusCode ← intSetting raw (str "status_code") 429
  let message ← strSetting raw (str "message") defaultBlockMessage
  let cacheTtl ← positive (str "permanent_cache_ttl") permanentCacheTtl
  let tempTtl ← positive (str "default_temp_ttl") defaultTempTtl
  let url ← redisGiven requireRedis enabled redisUrl
  return ⟨enabled, failOpen, failClosedPaths, url.1, requireRedis, permanentTierEnabled,
    cacheTtl.1, tempTtl.1, evalSafeOnIngress, applyViaSink, scopeSpecs, rules, blockPrecedence,
    statusCode, message, enforcement, cacheTtl.2, tempTtl.2, url.2⟩

/-- `from_settings`, of a mapping -/
def fromMapping : Except Exc EnforcementSettings := do
  let _ ← noUnknown raw
  let enforcement ← enforcementFrom lib raw
  settingsWith lib raw enforcement

end

/-- `DjangoEnforcementConfig.from_settings` -/
def fromSettings (lib : SettingsLibrary) : RawSettings → Except Exc EnforcementSettings
  | .config c => .ok c
  | .none => fromMapping lib .empty
  | .mapping items => fromMapping lib items
  | .other => configError (str
      "SEC_AUDIT_ENFORCEMENT must be a mapping or DjangoEnforcementConfig.")

/-! ## the actions that stay -/

section
variable {α β : Type} {name : Str}

theorem entryOf_append (l l' : List (Key × α)) :
    entryOf name (l ++ l') = (entryOf name l').or (entryOf name l) := by
  induction l with
  | nil => exact (Option.or_none).symm
  | cons p l ih =>
    show (entryOf name (l ++ l')).or _ = (entryOf name l').or ((entryOf name l).or _)
    rw [ih, Option.or_assoc]

theorem entryOf_eq_none {l : List (Key × α)} :
    entryOf name l = none ↔ ∀ p ∈ l, p.1.text ≠ .ok name := by
  induction l with
  | nil => exact iff_of_true rfl fun p hp => absurd hp List.not_mem_nil
  | cons p l ih =>
    show (entryOf name l).or _ = none ↔ _
    rw [Option.or_eq_none_iff, ih, List.forall_mem_cons, and_comm, ite_eq_right_iff]
    exact and_congr_left fun _ => ⟨fun h hp => Option.some_ne_none _ (h hp), fun h hp => absurd hp h⟩

/-- the entry under a name that comes once -/
theorem entryOf_map {f : Str × β → α} {v : β} : ∀ {l : List (Str × β)},
    (l.map Prod.fst).Nodup → (name, v) ∈ l →
    entryOf name (l.map fun d => (Key.str d.1, f d)) = some (.str name, f (name, v))
  | d :: l, hnd, hmem => by
    obtain ⟨hd, hnd⟩ := List.nodup_cons.mp hnd
    show (entryOf name (l.map fun d => (Key.str d.1, f d))).or _ = _
    rcases List.mem_cons.mp hmem with rfl | hmem
    · have hrest : entryOf name (l.map fun d => (Key.str d.1, f d)) = none := by
        refine entryOf_eq_none.mpr fun p hp ht => ?_
        obtain ⟨d, hd', rfl⟩ := List.mem_map.mp hp
        exact hd (List.mem_map.mpr ⟨d, hd', Except.ok.inj ht⟩)
      rw [hrest, Option.none_or]
      exact if_pos rfl
    · rw [entryOf_map hnd hmem]
      rfl

theorem metadataItem_none {l : List (Key × Value)} (h : entryOf name l = none) :
    metadataItem name l = none := by
  refine List.findSome?_eq_none_iff.mpr fun p hp => ?_
  have := entryOf_eq_none.mp h p hp
  split
  · rename_i s hs
    refine if_neg fun e => this ?_
    rw [hs, e]
    rfl
  · rfl

theorem defaultNames_nodup : (DEFAULT_RULE_ACTIONS.map Prod.fst).Nodup := by decide

/-- **a built-in rule keeps its default entry**, when no other is given -/
theorem entryOf_withDefaults {given : List (Key × Value)} {v : Value}
    (hnone : entryOf name given = none) (hv : (name, v) ∈ DEFAULT_RULE_ACTIONS) :
    entryOf name (rawActions (withDefaults given)) = some (.str name, .of v) := by
  unfold rawActions withDefaults
  have hrest : entryOf name ((given.filter fun p => match p.1 with
      | .str s => decide (s ∉ DEFAULT_RULE_ACTIONS.map Prod.fst)
      | .other _ => true).map fun p => (p.1, RawAction.of p.2)) = none := by
    refine entryOf_eq_none.mpr fun p hp => ?_
    obtain ⟨q, hq, rfl⟩ := List.mem_map.mp hp
    exact entryOf_eq_none.mp hnone q (List.mem_of_mem_filter hq)
  rw [List.map_append, entryOf_append, hrest, Option.none_or, List.map_map]
  have := entryOf_map (f := fun d => RawAction.of ((metadataItem d.1 given).getD d.2))
    defaultNames_nodup hv
  rw [metadataItem_none hnone] at this
  exact this

end

/-- an entry that names an action and its scopes is taken as it is -/
theorem accepted_actionWith {lib : SettingsLibrary} {action : Str} {scopes : List Str}
    {spec : ActionSpec} (hs : scopes ≠ [])
    (h : Accepted lib.toConfigObjects (.of (actionWith action scopes)) spec) :
    spec.action = action ∧ spec.scopes = some (.ok scopes) := by
  constructor
  · have := h.action
    exact (Value.str.inj (Option.some.inj this)).symm
  · rw [h.scopes]
    exact lib.scopes_texts scopes hs

/-! ## plain settings -/

/-- `tuple(str(scope) for scope in v)`, of strings -/
def valueTexts : List Value → Except Exc (List Str)
  | [] => .ok []
  | .str s :: l => (valueTexts l).map (s :: ·)
  | _ :: _ => .error .typeError

theorem valueTexts_map : ∀ l : List Str, valueTexts (l.map .str) = .ok l
  | [] => rfl
  | s :: l => by
    show (valueTexts (l.map .str)).map (s :: ·) = _
    rw [valueTexts_map l]
    rfl

/-- there is nothing to import, and no pattern compiles -/
def SettingsLibrary.sample : SettingsLibrary where
  repr _ := []
  scopes
    | .seq [] => none
    | .seq items => some (valueTexts items)
    | _ => none
  message
    | .str s => some s
    | _ => none
  reprStr := id
  compile _ := .error []
  dictOf _ := .error .typeError
  importString _ := .error .typeError
  reprSpec _ := []
  reprExtractor _ := []
  excText _ := []
  scopes_texts l hl := by
    cases l with
    | nil => exact absurd rfl hl
    | cons s l => exact congrArg some (valueTexts_map (s :: l))

/-- the settings of one key -/
def RawSettings.one (key : Str) (v : Setting) : RawSettings :=
  .mapping ⟨[(key, v)], List.nodup_singleton _⟩

end SecAudit
