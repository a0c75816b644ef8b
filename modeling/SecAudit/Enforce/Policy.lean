import SecAudit.Enforce.Enforcer

/-!
# The policy of a configuration

* `validateBlockRules`, `validateRuleActions`  what `EnforcementAuditConfig` makes of the mappings
                    that it is given;
* `Accepted`        what is known of an entry that it accepted;
* `plannedAction`, `plannedScopes`, `ownTtl`  the action that the mappings name for a match, its
                    scopes, and whether they say how long it lasts;
* `Enforceable`     a match is acted on without an error, and its temporary blocks are proper;
* `enforceable_iff` when that is so.
-/

set_option linter.unusedVariables false

namespace SecAudit
open Py Prog

/-! ## the mappings as they are given -/

/-- a value of `rule_actions`: an action, a mapping, or anything else -/
inductive RawAction where
  | str (action : Str)
  | mapping (items : List (Key × Value))
  | other

/-- what the objects in a configuration do -/
structure ConfigObjects where
  /-- `repr(key)` -/
  repr : Key → Str
  /-- `tuple(str(scope) for scope in v)`, when `v` is true -/
  scopes : Value → Option (Except Exc (List Str))
  /-- the text that `v` stands for as a message -/
  message : Value → Option Str

/-- `parsed[name] = value`, for the entry that `f` makes of each item -/
def parseEntries {α β : Type} (f : Key → α → Except Exc (Str × β)) :
    List (Key × α) → List (Str × β) → Except Exc (List (Str × β))
  | [], parsed => .ok parsed
  | (k, v) :: l, parsed => do
    let entry ← f k v
    parseEntries f l (setItem entry.1 entry.2 parsed)

/-- the last item whose key has the text `name` -/
def entryOf {α : Type} (name : Str) : List (Key × α) → Option (Key × α)
  | [] => none
  | p :: l => (entryOf name l).or (if p.1.text = .ok name then some p else none)

def configError {α : Type} (text : Str) : Except Exc α := .error (.auditConfigurationError text)

/-- `int_value` -/
def intValue (name : Str) : Value → Except Exc Int
  | .int i => .ok i
  | _ => configError (name ++ str " must be an int.")

/-! ## `block_rules` -/

/-- one turn of the loop of `_validate_block_rules` -/
def validateBlockRule (k : Key) (ttl : Value) : Except Exc (Str × BlockRule) := do
  let ttl ← intValue (str "block_rules TTL") ttl
  let name ← k.text
  if h : 0 < ttl then return (name, ⟨ttl, h⟩)
  else configError (str "block_rules TTLs must be positive.")

/-- `_validate_block_rules`; `none` is no mapping -/
def validateBlockRules : Option (List (Key × Value)) → Except Exc (List (Str × BlockRule))
  | none => configError (str "block_rules must be a mapping.")
  | some items => parseEntries validateBlockRule items []

/-! ## `rule_actions` -/

namespace RawAction

/-- `normalized.get(k)` -/
def get (k : Str) : RawAction → Option Value
  | .str action => if k = Py.str "action" then some (.str action) else none
  | .mapping items => metadataItem k items
  | .other => none

/-- `normalized.get(k)`, unless it is `None` -/
def given (k : Str) (spec : RawAction) : Option Value :=
  (spec.get k).filter fun v => match v with
    | .none => false
    | _ => true

end RawAction

/-- the checks of `ttl` -/
def validateTtl : Option Value → Except Exc {ttl : Option Int // ∀ n ∈ ttl, 0 < n}
  | none => .ok ⟨none, noTtl_pos⟩
  | some v => do
    let ttl ← intValue (str "rule_actions ttl") v
    if h : 0 < ttl then return ⟨some ttl, by simpa using h⟩
    else configError (str "rule_actions ttl must be positive.")

/-- the checks of `status_code` -/
def validateStatus :
    Option Value → Except Exc {code : Option Int // ∀ n ∈ code, 100 ≤ n ∧ n ≤ 599}
  | none => .ok ⟨none, noStatus_range⟩
  | some v => do
    let code ← intValue (str "rule_actions status_code") v
    if h : 100 ≤ code ∧ code ≤ 599 then return ⟨some code, by simpa using h⟩
    else configError (str "rule_actions status_code must be an HTTP status code.")

section
variable (objects : ConfigObjects)

/-- the action of a value that is an action or a mapping -/
def validateAction (k : Key) (spec : RawAction) :
    Except Exc {action : Str // action ∈ RULE_ACTIONS} :=
  let error := configError (str "rule_actions action for " ++ objects.repr k ++
    str " must be one of: alert, block, observe, persist_block, temp_block.")
  match spec, spec.get (str "action") with
  | .other, _ => configError (str "rule_actions values must be action strings or mappings.")
  | _, some (.str action) => if h : action ∈ RULE_ACTIONS then .ok ⟨action, h⟩ else error
  | _, _ => error

/-- the check of `scopes` -/
def validateScopes (v : Option Value) : Except Exc (Option (Except Exc (List Str))) :=
  match v with
  | some (.str _) => configError (str "rule_actions scopes must be a sequence.")
  | v => .ok (v.bind objects.scopes)

/-- one turn of the loop of `_validate_rule_actions` -/
def validateRuleAction (k : Key) (spec : RawAction) : Except Exc (Str × ActionSpec) := do
  let action ← validateAction objects k spec
  let ttl ← validateTtl (spec.given (str "ttl"))
  let code ← validateStatus (spec.given (str "status_code"))
  let scopes ← validateScopes objects (spec.given (str "scopes"))
  let name ← k.text
  return (name, ⟨action.1, ttl.1, scopes, code.1, (spec.given (str "message")).bind objects.message,
    action.2, ttl.2, code.2⟩)

/-- `_validate_rule_actions`; `none` is no mapping -/
def validateRuleActions : Option (List (Key × RawAction)) → Except Exc (List (Str × ActionSpec))
  | none => configError (str "rule_actions must be a mapping.")
  | some items => parseEntries (validateRuleAction objects) items []

end

/-! ## what was accepted -/

section
variable {α β : Type} {f : Key → α → Except Exc (Str × β)}

/-- each name has the entry of the last item under it -/
theorem getItem_parseEntries (name : Str) (hf : ∀ k v e, f k v = .ok e → k.text = .ok e.1) :
    ∀ {l : List (Key × α)} {parsed d : List (Str × β)}, parseEntries f l parsed = .ok d →
    match entryOf name l with
    | none => getItem name d = getItem name parsed
    | some p => ∃ v, f p.1 p.2 = .ok (name, v) ∧ getItem name d = some v
  | [], parsed, d, h => by
    cases h
    rfl
  | (k, v) :: l, parsed, d, h => by
    obtain ⟨entry, hx, h⟩ := ok_of_bind h
    replace h : parseEntries f l (setItem entry.1 entry.2 parsed) = .ok d := h
    have ih := getItem_parseEntries name hf h
    unfold entryOf
    rcases hl : entryOf name l with _ | p
    · rw [hl] at ih
      dsimp only at ih ⊢
      rw [Option.none_or, hf k v entry hx]
      by_cases hn : entry.1 = name
      · rw [if_pos (congrArg Except.ok hn)]
        subst hn
        rw [getItem_setItem_same] at ih
        exact ⟨entry.2, hx, ih⟩
      · rw [if_neg fun h' => hn (Except.ok.inj h')]
        rw [getItem_setItem_other _ _ (Ne.symm hn)] at ih
        exact ih
    · rw [hl] at ih
      exact ih

end

/-- what is known of an entry of `rule_actions` that was accepted -/
structure Accepted (objects : ConfigObjects) (raw : RawAction) (spec : ActionSpec) : Prop where
  action : raw.get (str "action") = some (.str spec.action)
  ttl : spec.ttl.isSome = (raw.given (str "ttl")).isSome
  scopes : spec.scopes = (raw.given (str "scopes")).bind objects.scopes

section
variable {objects : ConfigObjects} {k : Key} {raw : RawAction} {name : Str}

theorem validateAction_ok {action : {action : Str // action ∈ RULE_ACTIONS}}
    (h : validateAction objects k raw = .ok action) :
    raw.get (str "action") = some (.str action.1) := by
  unfold validateAction at h
  split at h
  · cases h
  · rename_i s _ hs
    split at h
    · cases h
      exact hs
    · cases h
  · cases h

theorem validateTtl_isSome {v : Option Value} {ttl : {ttl : Option Int // ∀ n ∈ ttl, 0 < n}}
    (h : validateTtl v = .ok ttl) : ttl.1.isSome = v.isSome := by
  unfold validateTtl at h
  cases v with
  | none =>
    cases h
    rfl
  | some v =>
    obtain ⟨n, -, h⟩ := ok_of_bind h
    split at h
    · cases h
      rfl
    · cases h

theorem validateScopes_ok {v : Option Value} {scopes : Option (Except Exc (List Str))}
    (h : validateScopes objects v = .ok scopes) : scopes = v.bind objects.scopes := by
  unfold validateScopes at h
  split at h
  · cases h
  · exact (Except.ok.inj h).symm

theorem validateRuleAction_ok {entry : Str × ActionSpec}
    (h : validateRuleAction objects k raw = .ok entry) :
    k.text = .ok entry.1 ∧ Accepted objects raw entry.2 := by
  obtain ⟨action, ha, h⟩ := ok_of_bind h
  obtain ⟨ttl, ht, h⟩ := ok_of_bind h
  obtain ⟨code, -, h⟩ := ok_of_bind h
  obtain ⟨scopes, hs, h⟩ := ok_of_bind h
  obtain ⟨name, hn, h⟩ := ok_of_bind h
  obtain rfl := Except.ok.inj h
  exact ⟨hn, validateAction_ok ha, validateTtl_isSome ht, validateScopes_ok hs⟩

theorem validateBlockRule_ok {v : Value} {entry : Str × BlockRule}
    (h : validateBlockRule k v = .ok entry) : k.text = .ok entry.1 := by
  obtain ⟨ttl, -, h⟩ := ok_of_bind h
  obtain ⟨name, hn, h⟩ := ok_of_bind h
  split at h
  · cases h
    exact hn
  · cases h

end

/-- the two mappings of a configuration -/
structure RawPolicy where
  ruleActions : List (Key × RawAction)
  blockRules : List (Key × Value)

namespace RawPolicy

section
variable (policy : RawPolicy) (objects : ConfigObjects)

/-- the enforcer has the mappings as they were accepted -/
structure AcceptedBy (e : Enforcer) : Prop where
  ruleActions : validateRuleActions objects (some policy.ruleActions) = .ok e.ruleActions
  blockRules : validateBlockRules (some policy.blockRules) = .ok e.blockRules

/-- the entry of `rule_actions` for a rule -/
def configured (name : Str) : Option RawAction := (entryOf name policy.ruleActions).map Prod.snd

/-- there is an entry of `block_rules` for a rule -/
def blocksRule (name : Str) : Bool := (entryOf name policy.blockRules).isSome

/-- the action that is named for a match -/
def plannedAction (e : Enforcer) (m : RuleMatch) : Str :=
  match policy.configured m.ruleName with
  | some raw => match raw.get (str "action") with
    | some (.str action) => action
    | _ => []
  | none =>
    if policy.blocksRule m.ruleName then str "temp_block"
    else (decided m).getD
      (if e.defaultAction ∈ str "alert" :: BLOCKING_ACTIONS then e.defaultAction
        else str "observe")

/-- the scopes that are named for a temporary block -/
def plannedScopes (m : RuleMatch) : List Str :=
  match (policy.configured m.ruleName).bind fun raw =>
    (raw.given (str "scopes")).bind objects.scopes with
  | some (.ok scopes) => scopes
  | _ => DEFAULT_BLOCK_SCOPES

/-- the mappings say how long a block lasts -/
def ownTtl (name : Str) : Bool :=
  match policy.configured name with
  | some raw => (raw.given (str "ttl")).isSome
  | none => policy.blocksRule name

/-- a temporary block is written: the action is one, some named scope is found in the summary, and
the metadata can be stored -/
structure WritesTemporary (py : Interp) (e : Enforcer) (m : RuleMatch) (summary : Summary) :
    Prop where
  action : policy.plannedAction e m = str "temp_block" ∨
    (policy.plannedAction e m = str "block" ∧ e.severityOk m = false)
  scopes : ∃ scope scopes,
    e.registry.blockScopes summary (some (policy.plannedScopes objects m)) = .ok (scope :: scopes)
  metadata : ∃ safe, Enforcer.safeMetadata py m = .ok safe

end

end RawPolicy

/-! ## the resolved action -/

/-- an action as the mappings name it for a match -/
structure Planned (policy : RawPolicy) (objects : ConfigObjects) (py : Interp) (e : Enforcer)
    (m : RuleMatch) (action : RuleAction) : Prop where
  named : action.action = policy.plannedAction e m
  scopes : action.action ≠ str "persist_block" → action.scopes = policy.plannedScopes objects m
  own : policy.ownTtl m.ruleName = true → ∃ n, action.ttl = some n ∧ 0 < n
  matched : policy.ownTtl m.ruleName = false →
    action.ttl = none ∨ matchBlockTtl py m e.defaultTtl = .ok action.ttl
  status : ∀ n ∈ action.statusCode, 100 ≤ n ∧ n ≤ 599

section
variable {policy : RawPolicy} {objects : ConfigObjects} {py : Interp} {e : Enforcer} {m : RuleMatch}

/-- `int` reads the ttl of the metadata, if there is one -/
def ReadsTtl (py : Interp) (m : RuleMatch) : Prop :=
  ∀ v, metadataTtl m.metadata = some v → ∃ n, py.intValue v = .ok n

theorem readsTtl_iff (defaultTtl : Option Int) :
    ReadsTtl py m ↔ ∃ ttl, matchBlockTtl py m defaultTtl = .ok ttl := by
  unfold ReadsTtl matchBlockTtl
  rcases metadataTtl m.metadata with _ | v
  · exact iff_of_true (fun v h => absurd h (by simp)) ⟨_, rfl⟩
  · rcases hx : py.intValue v with x | n
    · refine iff_of_false (fun h => ?_) ?_
      · obtain ⟨n, hn⟩ := h v rfl
        rw [hx] at hn
        cases hn
      · rintro ⟨ttl, ht⟩
        dsimp only at ht
        rw [hx] at ht
        cases ht
    · refine iff_of_true (fun v' h => ?_) ⟨some n, ?_⟩
      · obtain rfl := Option.some.inj h
        exact ⟨n, hx⟩
      · dsimp only
        rw [hx]
        rfl

/-- the entry for a rule in each of the mappings -/
theorem accepted_entry (h : policy.AcceptedBy objects e) (name : Str) :
    match policy.configured name with
    | none => getItem name e.ruleActions = none
    | some raw => ∃ spec, getItem name e.ruleActions = some spec ∧ Accepted objects raw spec := by
  have hget := getItem_parseEntries name (fun k v entry hv => (validateRuleAction_ok hv).1)
    h.ruleActions
  unfold RawPolicy.configured
  rcases hp : entryOf name policy.ruleActions with _ | p
  · rw [hp] at hget
    exact hget
  · rw [hp] at hget
    obtain ⟨spec, hspec, hs⟩ := hget
    exact ⟨spec, hs, (validateRuleAction_ok hspec).2⟩

theorem accepted_rule (h : policy.AcceptedBy objects e) (name : Str) :
    (getItem name e.blockRules).isSome = policy.blocksRule name := by
  have hget := getItem_parseEntries name (fun k v entry hv => validateBlockRule_ok hv)
    h.blockRules
  unfold RawPolicy.blocksRule
  rcases hp : entryOf name policy.blockRules with _ | p
  · rw [hp] at hget
    rw [show getItem name e.blockRules = none from hget]
    rfl
  · rw [hp] at hget
    obtain ⟨rule, -, hr⟩ := hget
    rw [hr]
    rfl

/-- the scopes of the entry for a rule can be read -/
def ReadsScopes (policy : RawPolicy) (objects : ConfigObjects) (name : Str) : Prop :=
  ∀ raw, policy.configured name = some raw → ∀ v, raw.given (str "scopes") = some v →
    ∀ x, objects.scopes v ≠ some (.error x)

/-- an action is resolved exactly when the scopes of its entry can be read and, where the mappings
do not say how long it lasts, the ttl of the metadata; and then it is the one they name -/
structure ResolvesTo (policy : RawPolicy) (objects : ConfigObjects) (py : Interp) (e : Enforcer)
    (m : RuleMatch) (r : Except Exc RuleAction) : Prop where
  planned : ∀ action, r = .ok action →
    ReadsScopes policy objects m.ruleName ∧ Planned policy objects py e m action
  total : ReadsScopes policy objects m.ruleName →
    (policy.ownTtl m.ruleName = false → ReadsTtl py m) → ∃ action, r = .ok action

/-- without an entry there are no scopes to read -/
theorem unconfigured (hc : policy.configured m.ruleName = none) :
    ReadsScopes policy objects m.ruleName ∧
      policy.plannedScopes objects m = DEFAULT_BLOCK_SCOPES ∧
      policy.ownTtl m.ruleName = policy.blocksRule m.ruleName := by
  refine ⟨fun raw hraw => ?_, ?_, ?_⟩
  · rw [hc] at hraw
    cases hraw
  · unfold RawPolicy.plannedScopes
    rw [hc]
    rfl
  · unfold RawPolicy.ownTtl
    rw [hc]

/-- the action of the match or the default, with the ttl of the match -/
theorem resolvesTo_match {name : Str} {scopes : List Str}
    (hc : policy.configured m.ruleName = none) (hb : policy.blocksRule m.ruleName = false)
    (hname : policy.plannedAction e m = name)
    (hs : name ≠ str "persist_block" → scopes = DEFAULT_BLOCK_SCOPES) :
    ResolvesTo policy objects py e m (matchAction py name m e.defaultTtl scopes) := by
  obtain ⟨hreads, hplanned, hown⟩ := @unconfigured policy objects m hc
  rw [hb] at hown
  unfold matchAction
  constructor
  · intro action ha
    obtain ⟨ttl, ht, ha⟩ := ok_of_bind ha
    obtain rfl := Except.ok.inj ha
    exact ⟨hreads, hname.symm, fun hne => (hs hne).trans hplanned.symm,
      fun ho => Bool.noConfusion (hown.symm.trans ho), fun _ => .inr ht,
      fun n hn => absurd hn (Option.not_mem_none n)⟩
  · intro _ hr
    obtain ⟨ttl, ht⟩ := (readsTtl_iff e.defaultTtl).mp (hr hown)
    rw [ht]
    exact ⟨_, rfl⟩

/-- nothing is said but the name of the action -/
theorem resolvesTo_plain {name : Str} (hc : policy.configured m.ruleName = none)
    (hb : policy.blocksRule m.ruleName = false) (hname : policy.plannedAction e m = name) :
    ResolvesTo policy objects py e m (.ok { action := name }) := by
  obtain ⟨hreads, hplanned, hown⟩ := @unconfigured policy objects m hc
  rw [hb] at hown
  refine ⟨fun action ha => ?_, fun _ _ => ⟨_, rfl⟩⟩
  cases ha
  exact ⟨hreads, hname.symm, fun _ => hplanned.symm,
    fun ho => Bool.noConfusion (hown.symm.trans ho), fun _ => .inl rfl,
    fun n hn => absurd hn (Option.not_mem_none n)⟩

theorem resolvesTo_rule (rule : BlockRule) (hc : policy.configured m.ruleName = none)
    (hb : policy.blocksRule m.ruleName = true)
    (hname : policy.plannedAction e m = str "temp_block") :
    ResolvesTo policy objects py e m
      (.ok { action := str "temp_block", ttl := some rule.ttl }) := by
  obtain ⟨hreads, hplanned, hown⟩ := @unconfigured policy objects m hc
  rw [hb] at hown
  refine ⟨fun action ha => ?_, fun _ _ => ⟨_, rfl⟩⟩
  cases ha
  exact ⟨hreads, hname.symm, fun _ => hplanned.symm, fun _ => ⟨rule.ttl, rfl, rule.ttl_pos⟩,
    fun ho => Bool.noConfusion (hown.symm.trans ho), fun n hn => absurd hn (Option.not_mem_none n)⟩

/-- the entry of the rule -/
theorem resolvesTo_configured {raw : RawAction} {spec : ActionSpec}
    (hc : policy.configured m.ruleName = some raw) (hacc : Accepted objects raw spec) :
    ResolvesTo policy objects py e m (configuredRuleAction spec) := by
  have haction : policy.plannedAction e m = spec.action := by
    unfold RawPolicy.plannedAction
    rw [hc]
    dsimp only
    rw [hacc.action]
  have hown : policy.ownTtl m.ruleName = spec.ttl.isSome := by
    unfold RawPolicy.ownTtl
    rw [hc, hacc.ttl]
  have hplanned : policy.plannedScopes objects m = match spec.scopes with
      | some (.ok scopes) => scopes
      | _ => DEFAULT_BLOCK_SCOPES := by
    unfold RawPolicy.plannedScopes
    rw [hc, Option.bind_some, ← hacc.scopes]
  have hreads : ReadsScopes policy objects m.ruleName ↔ ∀ x, spec.scopes ≠ some (.error x) := by
    unfold ReadsScopes
    rw [hacc.scopes]
    constructor
    · intro hr x hx
      obtain ⟨v, hv, hxv⟩ := Option.bind_eq_some_iff.mp hx
      exact hr raw hc v hv x hxv
    · intro hr raw' hraw v hv x hxv
      obtain rfl := Option.some.inj (hc.symm.trans hraw)
      exact hr x (Option.bind_eq_some_iff.mpr ⟨v, hv, hxv⟩)
  have hfacts : ∀ scopes, (∀ x, spec.scopes ≠ some (.error x)) →
      scopes = policy.plannedScopes objects m →
      ReadsScopes policy objects m.ruleName ∧ Planned policy objects py e m
        ⟨spec.action, spec.ttl, scopes, spec.statusCode, spec.message⟩ := by
    intro scopes hne hs
    refine ⟨hreads.mpr hne, haction.symm, fun _ => hs, fun ho => ?_, fun ho => .inl ?_,
      spec.status_valid⟩
    · rw [hown] at ho
      obtain ⟨n, hn⟩ := Option.isSome_iff_exists.mp ho
      exact ⟨n, hn, spec.ttl_pos n hn⟩
    · rw [hown] at ho
      exact Option.not_isSome_iff_eq_none.mp (by rw [ho]; exact Bool.false_ne_true)
  unfold configuredRuleAction
  rcases hs : spec.scopes with _ | x | scopes
  · rw [hs] at hplanned hfacts
    refine ⟨fun action ha => ?_, fun _ _ => ⟨_, rfl⟩⟩
    cases ha
    exact hfacts _ (fun x h' => by cases h') hplanned.symm
  · rw [hs] at hreads
    refine ⟨fun action ha => ?_, fun hr _ => absurd rfl (hreads.mp hr x)⟩
    cases ha
  · rw [hs] at hplanned hfacts
    refine ⟨fun action ha => ?_, fun _ _ => ⟨_, rfl⟩⟩
    cases ha
    exact hfacts _ (fun x h' => by cases h') hplanned.symm

/-- **the action of a match** -/
theorem resolveAction_planned (h : policy.AcceptedBy objects e) :
    ResolvesTo policy objects py e m (e.resolveAction py m) := by
  have hentry := accepted_entry h m.ruleName
  have hrule := accepted_rule h m.ruleName
  unfold Enforcer.resolveAction resolveRuleAction
  rcases hc : policy.configured m.ruleName with _ | raw
  · have haction : policy.plannedAction e m = if policy.blocksRule m.ruleName then str "temp_block"
        else (decided m).getD (if e.defaultAction ∈ str "alert" :: BLOCKING_ACTIONS
          then e.defaultAction else str "observe") := by
      unfold RawPolicy.plannedAction
      rw [hc]
    rw [hc] at hentry
    rw [show getItem m.ruleName e.ruleActions = none from hentry]
    dsimp only
    rcases hr : getItem m.ruleName e.blockRules with _ | rule
    · rw [hr] at hrule
      rw [if_neg (by rw [← hrule]; exact Bool.false_ne_true)] at haction
      dsimp only
      rcases hd : decided m with _ | decision
      · rw [hd, Option.getD_none] at haction
        dsimp only
        by_cases halert : e.defaultAction = str "alert"
        · rw [if_pos halert]
          rw [if_pos (by rw [halert]; exact List.mem_cons_self), halert] at haction
          exact resolvesTo_plain hc hrule.symm haction
        · rw [if_neg halert]
          by_cases hb : e.defaultAction ∈ BLOCKING_ACTIONS
          · rw [if_pos hb]
            rw [if_pos (List.mem_cons_of_mem _ hb)] at haction
            exact resolvesTo_match hc hrule.symm haction fun _ => rfl
          · rw [if_neg hb]
            rw [if_neg fun h' => (List.mem_cons.mp h').elim halert hb] at haction
            exact resolvesTo_plain hc hrule.symm haction
      · rw [hd, Option.getD_some] at haction
        exact resolvesTo_match hc hrule.symm haction fun hne => if_neg hne
    · rw [hr] at hrule
      rw [← hrule] at haction
      exact resolvesTo_rule rule hc hrule.symm haction
  · rw [hc] at hentry
    obtain ⟨spec, hspec, hacc⟩ := hentry
    rw [hspec]
    exact resolvesTo_configured hc hacc

end

/-! ## what `apply` writes -/

/-- a temporary block has a positive ttl and the status of a response -/
def ProperBlock {Response : Type} : (β : Type) → Eff Response β → Prop
  | _, .block _ a ttl => ∀ n ∈ ttl, 0 < n ∧ 100 ≤ a.statusCode ∧ a.statusCode ≤ 599
  | _, _ => True

/-- the action of a match is resolved and how long it lasts is found, both without an error, and
every temporary block that is written for it is proper -/
def Enforceable (Response : Type) (py : Interp) (e : Enforcer) (m : RuleMatch) (summary : Summary) :
    Prop :=
  ∃ action, e.resolveAction py m = .ok action ∧
    (∃ ttl, effectiveActionTtl py action m e.defaultTtl = .ok ttl) ∧
    Only ProperBlock (e.apply py m action summary : Routine Response (List Built))

section
variable {policy : RawPolicy} {objects : ConfigObjects} {py : Interp} {e : Enforcer} {m : RuleMatch}
  {action : RuleAction}

theorem actionKind_temp : e.actionKind action m = some .temp ↔
    action.action = str "temp_block" ∨
      (action.action = str "block" ∧ e.severityOk m = false) := by
  unfold Enforcer.actionKind
  split
  · rename_i h
    exact iff_of_true rfl (.inl h)
  · rename_i h1
    split
    · rename_i h2
      refine iff_of_false (by simp) fun h' => h'.elim h1 fun h' => ?_
      exact absurd (h2.symm.trans h'.1) (by decide)
    · split
      · rename_i h
        cases hs : e.severityOk m
        · exact iff_of_true (by simp) (.inr ⟨h, rfl⟩)
        · exact iff_of_false (by simp) fun h' => h'.elim h1 fun h' => Bool.noConfusion h'.2
      · rename_i h3
        exact iff_of_false (by simp) fun h' => h'.elim h1 fun h' => h3 h'.1

theorem temp_not_persist (h : e.actionKind action m = some .temp) :
    action.action ≠ str "persist_block" := by
  intro h'
  rcases actionKind_temp.mp h with ht | ⟨hb, -⟩
  · exact absurd (h'.symm.trans ht) (by decide)
  · exact absurd (h'.symm.trans hb) (by decide)

/-- how long a block lasts whose action names no ttl but that of the metadata -/
def lasting (ttl defaultTtl : Option Int) : Int := (orInt (orInt ttl defaultTtl) none).getD 300

theorem lasting_orInt (ttl d : Option Int) : lasting (orInt ttl d) d = lasting ttl d := by
  unfold lasting
  congr 1
  rcases ttl with _ | n
  · rcases d with _ | k
    · rfl
    · show orInt (if k = 0 then some k else some k) none = _
      rw [ite_self]
      rfl
  · show orInt (orInt (if n = 0 then d else some n) d) none
      = orInt (if n = 0 then d else some n) none
    by_cases hn : n = 0
    · rw [if_pos hn]
      rcases d with _ | k
      · rfl
      · show orInt (if k = 0 then some k else some k) none = _
        rw [ite_self]
    · rw [if_neg hn]
      show orInt (if n = 0 then d else some n) none = _
      rw [if_neg hn]

/-- what stands in for a ttl that is missing or zero is positive -/
theorem lasting_pos_iff {ttl d : Option Int} (hd : ∀ n ∈ d, 0 < n) :
    0 < lasting ttl d ↔ ∀ n ∈ ttl, 0 ≤ n := by
  have hdefault : 0 < (orInt d none).getD 300 := by
    rcases d with _ | k
    · decide
    · have hk := hd k rfl
      show 0 < (if k = 0 then none else some k : Option Int).getD 300
      rw [if_neg (by omega : ¬ k = 0)]
      exact hk
  unfold lasting
  rcases ttl with _ | n
  · exact iff_of_true hdefault fun n hn => absurd hn (Option.not_mem_none n)
  · show 0 < (orInt (if n = 0 then d else some n) none).getD 300 ↔ _
    by_cases hn : n = 0
    · rw [if_pos hn]
      refine iff_of_true hdefault fun k hk => ?_
      have hk' := Option.mem_some_iff.mp hk
      omega
    · rw [if_neg hn]
      show 0 < (if n = 0 then none else some n : Option Int).getD 300 ↔ _
      rw [if_neg hn, Option.getD_some]
      constructor
      · intro h k hk
        rw [← Option.mem_some_iff.mp hk]
        exact Int.le_of_lt h
      · intro h
        have := h n rfl
        omega

theorem effective_matched {ttl : Option Int} (ht : matchBlockTtl py m e.defaultTtl = .ok ttl)
    (ha : action.ttl = none ∨ action.ttl = ttl) :
    (∃ t, effectiveActionTtl py action m e.defaultTtl = .ok t) ∧
      e.blockTtl py .temp action m = .ok (some (lasting ttl e.defaultTtl)) := by
  have hmatch : orInt action.ttl none = none →
      effectiveActionTtl py action m e.defaultTtl = .ok (orInt ttl e.defaultTtl) := by
    intro h
    unfold effectiveActionTtl
    rw [h, ht]
    rfl
  unfold Enforcer.blockTtl
  rcases ho : orInt action.ttl none with _ | k
  · rw [hmatch ho]
    exact ⟨⟨_, rfl⟩, congrArg (fun n => Except.ok (some n)) (lasting_orInt ttl e.defaultTtl)⟩
  · have heff : effectiveActionTtl py action m e.defaultTtl = .ok (some k) := by
      unfold effectiveActionTtl
      rw [ho]
    have hk : action.ttl = some k ∧ k ≠ 0 := by
      rcases hx : action.ttl with _ | n
      · rw [hx] at ho
        cases ho
      · rw [hx] at ho
        change (if n = 0 then none else some n) = some k at ho
        split at ho
        · cases ho
        · rename_i hn
          obtain rfl := Option.some.inj ho
          exact ⟨rfl, hn⟩
    obtain rfl : ttl = some k := by
      rcases ha with ha | ha
      · rw [ha] at hk
        cases hk.1
      · exact ha.symm.trans hk.1
    rw [heff]
    exact ⟨⟨_, rfl⟩, rfl⟩

theorem effective_own {n : Int} (ha : action.ttl = some n) (hn : 0 < n) :
    effectiveActionTtl py action m e.defaultTtl = .ok (some n) ∧
      e.blockTtl py .temp action m = .ok (some n) := by
  have ho : orInt action.ttl none = some n := by
    rw [ha]
    exact if_neg (by omega)
  have heff : effectiveActionTtl py action m e.defaultTtl = .ok (some n) := by
    unfold effectiveActionTtl
    rw [ho]
  refine ⟨heff, ?_⟩
  unfold Enforcer.blockTtl
  rw [heff]
  show Except.ok (some ((orInt (if n = 0 then e.defaultTtl else some n) none).getD 300)) = _
  rw [if_neg (by omega : ¬ n = 0)]
  show Except.ok (some ((if n = 0 then none else some n : Option Int).getD 300)) = _
  rw [if_neg (by omega : ¬ n = 0)]
  rfl

/-- the ttl of the metadata is not negative -/
theorem matchBlockTtl_nonneg_iff {ttl : Option Int} (hd : ∀ n ∈ e.defaultTtl, 0 < n)
    (ht : matchBlockTtl py m e.defaultTtl = .ok ttl) :
    (∀ n ∈ ttl, 0 ≤ n) ↔
      ∀ v, metadataTtl m.metadata = some v → ∀ n, py.intValue v = .ok n → 0 ≤ n := by
  unfold matchBlockTtl at ht
  rcases hv : metadataTtl m.metadata with _ | v
  · refine iff_of_true (fun n hn => ?_) fun v h => by cases h
    rw [hv] at ht
    cases ht
    split at hn
    · have hpos : 0 < (orInt e.defaultTtl none).getD 300 := by
        have : 0 < lasting none e.defaultTtl :=
          (lasting_pos_iff hd).mpr fun n hn => absurd hn (Option.not_mem_none n)
        exact this
      rw [← Option.mem_some_iff.mp hn]
      exact Int.le_of_lt hpos
    · exact absurd hn (Option.not_mem_none n)
  · rw [hv] at ht
    dsimp only at ht
    rcases hx : py.intValue v with x | n
    · rw [hx] at ht
      cases ht
    · rw [hx] at ht
      cases ht
      constructor
      · intro h v' hv k hk
        obtain rfl := Option.some.inj hv
        rw [hx] at hk
        cases hk
        exact h n rfl
      · intro h k hk
        rw [← Option.mem_some_iff.mp hk]
        exact h v rfl n hx

/-- **how long a planned block lasts**: a time is found, and it is positive unless the ttl of the
metadata is read and negative -/
theorem blockTtl_planned (hp : Planned policy objects py e m action)
    (hd : ∀ n ∈ e.defaultTtl, 0 < n) (hr : policy.ownTtl m.ruleName = false → ReadsTtl py m) :
    (∃ ttl, effectiveActionTtl py action m e.defaultTtl = .ok ttl) ∧
      ∃ n, e.blockTtl py .temp action m = .ok (some n) ∧
        (0 < n ↔ (policy.ownTtl m.ruleName = false →
          ∀ v, metadataTtl m.metadata = some v → ∀ k, py.intValue v = .ok k → 0 ≤ k)) := by
  cases ho : policy.ownTtl m.ruleName with
  | true =>
    obtain ⟨n, hn, hpos⟩ := hp.own ho
    obtain ⟨heff, hblock⟩ := @effective_own py e m action n hn hpos
    exact ⟨⟨_, heff⟩, n, hblock, iff_of_true hpos fun h => Bool.noConfusion h⟩
  | false =>
    obtain ⟨ttl, ht⟩ := (readsTtl_iff e.defaultTtl).mp (hr ho)
    have ha : action.ttl = none ∨ action.ttl = ttl :=
      (hp.matched ho).imp_right fun h => Except.ok.inj (h.symm.trans ht)
    obtain ⟨heff, hblock⟩ := effective_matched ht ha
    refine ⟨heff, _, hblock, ?_⟩
    rw [lasting_pos_iff hd, matchBlockTtl_nonneg_iff hd ht]
    exact ⟨fun h _ => h, fun h => h rfl⟩

/-- the status of a planned block is that of a response -/
theorem status_planned (hp : Planned policy objects py e m action)
    (hs : 100 ≤ e.statusCode ∧ e.statusCode ≤ 599) (metadata : List (Str × Json)) :
    100 ≤ (e.blockArgs action m metadata).statusCode ∧
      (e.blockArgs action m metadata).statusCode ≤ 599 := by
  show 100 ≤ (orInt action.statusCode none).getD e.statusCode ∧
    (orInt action.statusCode none).getD e.statusCode ≤ 599
  rcases hc : action.statusCode with _ | n
  · exact hs
  · have hn := hp.status n hc
    show 100 ≤ (if n = 0 then none else some n : Option Int).getD e.statusCode ∧
      (if n = 0 then none else some n : Option Int).getD e.statusCode ≤ 599
    rw [if_neg (by omega : n ≠ 0)]
    exact hn

/-! ## when all is well -/

section
variable {Response : Type} {kind : ActionKind} {metadata : List (Str × Json)} {summary : Summary}

/-- the loop of `apply` writes proper blocks when the ttl and the status are proper -/
theorem only_proper (h : ∀ ttl, e.blockTtl py kind action m = .ok ttl → ∀ n ∈ ttl, 0 < n ∧
      100 ≤ (e.blockArgs action m metadata).statusCode ∧
      (e.blockArgs action m metadata).statusCode ≤ 599) :
    ∀ (scopes : List BlockScope) (results : List Built), Only ProperBlock
      (e.applyScopes py m action kind metadata scopes results : Routine Response (List Built))
  | [], _ => only_done _
  | scope :: scopes, results => by
    unfold Enforcer.applyScopes Enforcer.applyScope
    refine Only.bind ?_ fun built => only_proper h scopes _
    exact Only.ofExcept fun ttl ht => Only.bind (only_perform (h ttl ht)) fun entry =>
      Only.bind (only_perform trivial) fun now => only_done _

/-- what is written first for a temporary block -/
theorem proper_first {scope : BlockScope} {scopes : List BlockScope} {n : Int}
    (hkind : e.actionKind action m = some .temp)
    (hfound : e.registry.blockScopes summary (some action.scopes) = .ok (scope :: scopes))
    (hsafe : Enforcer.safeMetadata py m = .ok metadata)
    (ht : e.blockTtl py .temp action m = .ok (some n))
    (h : Only ProperBlock (e.apply py m action summary : Routine Response (List Built))) :
    0 < n := by
  unfold Enforcer.apply at h
  rw [hkind] at h
  dsimp only at h
  rw [hfound, hsafe] at h
  unfold Enforcer.applyScopes Enforcer.applyScope at h
  rw [ht] at h
  exact (h.1 n rfl).1

end

/-- **a match is acted on without an error, and properly,** exactly when the scopes of the entry for
its rule can be read and, where the mappings do not say how long a block lasts, the ttl of its
metadata can be read and is not negative when a temporary block is written -/
theorem enforceable_iff (Response : Type) (policy : RawPolicy) (objects : ConfigObjects)
    (py : Interp) (e : Enforcer) (haccepted : policy.AcceptedBy objects e)
    (hdefault : ∀ n ∈ e.defaultTtl, 0 < n) (hstatus : 100 ≤ e.statusCode ∧ e.statusCode ≤ 599)
    (m : RuleMatch) (summary : Summary) :
    Enforceable Response py e m summary ↔
      ReadsScopes policy objects m.ruleName ∧
      (policy.ownTtl m.ruleName = false → ∀ v, metadataTtl m.metadata = some v →
        ∃ n, py.intValue v = .ok n ∧
          (n < 0 → ¬ policy.WritesTemporary objects py e m summary)) := by
  have hresolve := @resolveAction_planned policy objects py e m haccepted
  constructor
  · rintro ⟨action, haction, ⟨ttl, heff⟩, honly⟩
    obtain ⟨hscopes, hp⟩ := hresolve.planned action haction
    have hreads : policy.ownTtl m.ruleName = false → ReadsTtl py m := by
      intro ho
      rw [readsTtl_iff e.defaultTtl]
      rcases hp.matched ho with hn | ht
      · unfold effectiveActionTtl at heff
        rw [hn] at heff
        rcases hx : matchBlockTtl py m e.defaultTtl with x | t
        · simp only [orInt, bind, Except.bind, hx] at heff
          cases heff
        · exact ⟨t, rfl⟩
      · exact ⟨_, ht⟩
    refine ⟨hscopes, fun ho v hv => ?_⟩
    obtain ⟨n, hn⟩ := hreads ho v hv
    refine ⟨n, hn, fun hneg hw => ?_⟩
    obtain ⟨-, k, hk, hpos⟩ := blockTtl_planned hp hdefault hreads
    obtain ⟨scope, scopes, hfound⟩ := hw.scopes
    obtain ⟨safe, hsafe⟩ := hw.metadata
    have hkind : e.actionKind action m = some .temp := by
      rw [actionKind_temp, hp.named]
      exact hw.action
    rw [← hp.scopes (temp_not_persist hkind)] at hfound
    have := hpos.mp (proper_first hkind hfound hsafe hk honly) ho v hv n hn
    omega
  · rintro ⟨hscopes, hmetadata⟩
    have hreads : policy.ownTtl m.ruleName = false → ReadsTtl py m := fun ho v hv =>
      (hmetadata ho v hv).imp fun n hn => hn.1
    obtain ⟨action, haction⟩ := hresolve.total hscopes hreads
    obtain ⟨-, hp⟩ := hresolve.planned action haction
    obtain ⟨heff, k, hk, hpos⟩ := blockTtl_planned hp hdefault hreads
    refine ⟨action, haction, heff, ?_⟩
    unfold Enforcer.apply
    rcases hkind : e.actionKind action m with _ | kind
    · dsimp only
      split
      · exact Only.bind (only_perform trivial) fun now =>
          Only.ofExcept fun built _ => only_done _
      · exact only_done _
    refine Only.ofExcept fun found hfound => Only.ofExcept fun safe hsafe => ?_
    cases kind with
    | permanent =>
      refine only_proper (fun ttl ht n hn => ?_) found []
      cases ht
      exact absurd hn (Option.not_mem_none n)
    | temp =>
      cases found with
      | nil => exact only_done _
      | cons scope scopes =>
        refine only_proper (fun ttl ht n hn => ?_) (scope :: scopes) []
        rw [hk] at ht
        cases ht
        rw [← Option.mem_some_iff.mp hn]
        refine ⟨hpos.mpr fun ho v hv n' hn' => ?_, status_planned hp hstatus safe⟩
        obtain ⟨n'', hn'', hw⟩ := hmetadata ho v hv
        obtain rfl := Except.ok.inj (hn''.symm.trans hn')
        refine Int.not_lt.mp fun hneg => hw hneg ⟨?_, ⟨scope, scopes, ?_⟩, safe, hsafe⟩
        · rw [← hp.named]
          exact actionKind_temp.mp hkind
        · rw [← hp.scopes (temp_not_persist hkind)]
          exact hfound

end

/-! ## a rule whose matches say how long -/

/-- the objects of a configuration of plain values: no key is anything but a string, and a number
is no sequence of scopes -/
def ConfigObjects.sample : ConfigObjects where
  repr _ := []
  scopes
    | .int n => if n = 0 then none else some (.error .typeError)
    | _ => none
  message
    | .str s => some s
    | _ => none

/-- the rule `bursts` blocks for a while -/
def RawPolicy.sample : RawPolicy := ⟨[(.str (str "bursts"), .str (str "temp_block"))], []⟩

def Enforcer.timed : Enforcer where
  registry := .default .sample
  schemaVersion := str "1"
  ruleActions := [(str "bursts", { action := str "temp_block", action_known := tempBlock_known })]
  schema_ne := by decide

/-- a match that says to block for `ttl` seconds -/
def timedMatch (ttl : Int) : RuleMatch where
  ruleName := str "bursts"
  severity := 5
  matchedAt := 0
  message := []
  metadata := [(.str (str "ttl"), .int ttl)]

theorem timed_accepted : RawPolicy.sample.AcceptedBy .sample .timed := ⟨rfl, rfl⟩

theorem enforceable_minute : Enforceable Unit .sample .timed (timedMatch 60)
    [(str "srcip", .string (str "9.9.9.9"))] := by
  refine (enforceable_iff Unit .sample .sample .sample .timed timed_accepted (by decide) (by decide)
    (timedMatch 60) [(str "srcip", .string (str "9.9.9.9"))]).mpr
    ⟨fun raw hraw v hv => ?_, fun _ v hv => ⟨60, ?_, fun h => absurd h (by decide)⟩⟩
  · obtain rfl : RawAction.str (str "temp_block") = raw := Option.some.inj hraw
    cases hv
  · obtain rfl : Value.int 60 = v := Option.some.inj hv
    rfl

/-- a block for less than no time -/
theorem negative_block : ¬ ∀ (policy : RawPolicy) (objects : ConfigObjects) (py : Interp)
    (e : Enforcer), policy.AcceptedBy objects e → (∀ n ∈ e.defaultTtl, 0 < n) →
    100 ≤ e.statusCode ∧ e.statusCode ≤ 599 → ∀ (m : RuleMatch) (summary : Summary),
    Enforceable Unit py e m summary := by
  intro h
  obtain ⟨action, haction, -, honly⟩ := h .sample .sample .sample .timed timed_accepted (by decide)
    (by decide) (timedMatch (-5)) [(str "srcip", .string (str "9.9.9.9"))]
  obtain rfl : { action := str "temp_block" } = action := Except.ok.inj haction
  have := proper_first (n := -5) rfl rfl rfl rfl honly
  omega

end SecAudit
