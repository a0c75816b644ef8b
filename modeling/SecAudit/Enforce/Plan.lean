import SecAudit.Enforce.Runtime

/-!
# What is planned for a match, and what a run shows of it

* `Plan`, `planOf`  the writes that a match asks for, and its alerts;
* `writeAll`        the writes, one after the other, until one fails;
* `Seen`, `seen`    what a trace shows: the writes attempted, those that returned, and the events
                    emitted of blocks and alerts;
* `runs_announce_ok`, `runs_announce_failed`, `runs_announce_error`  what is done for a match, read
                    off its plan.
-/

set_option linter.unusedVariables false

namespace SecAudit
open Py Prog

/-- the attributes of an event -/
abbrev Attributes := List (Str × Json)

/-! ## plans -/

/-- a write to the store -/
structure Write where
  scope : BlockScope
  args : BlockArgs
  ttl : Option Int

/-- the writes for a match, and the attributes of its alerts -/
structure Plan where
  writes : List Write
  alerts : List Attributes

/-- the attributes of an alert -/
def alertAttributes (schemaVersion : Str) (m : RuleMatch) : Attributes :=
  withAuthoritative (attrs
    [(str "security_rule.name", .string m.ruleName), (str "security_rule.severity", .int m.severity),
      (str "security_rule.description", .string m.message),
      (str "enforcement.action", .string (str "alert")),
      (str "source.address", .string (orEmpty m.srcip)),
      (str "session.id", .string (orEmpty m.sessionId)),
      (str "user.id", .string (orEmpty m.userId))]) ALERT schemaVersion

section
variable (py : Interp) (e : Enforcer) (m : RuleMatch) (summary : Summary)

/-- what `apply` sets out to do for an action that blocks -/
def planBlocks (action : RuleAction) (kind : ActionKind) : Except Exc Plan := do
  let scopes ← e.registry.blockScopes summary (some action.scopes)
  let metadata ← Enforcer.safeMetadata py m
  if scopes = [] then return ⟨[], []⟩
  else do
    let ttl ← e.blockTtl py kind action m
    return ⟨scopes.map fun scope => ⟨scope, e.blockArgs action m metadata, ttl⟩, []⟩

/-- what `resolve_action` and `apply` set out to do for a match -/
def planOf : Except Exc Plan := do
  let action ← e.resolveAction py m
  match e.actionKind action m with
  | none => return ⟨[], if action.action = str "alert" then [alertAttributes e.schemaVersion m] else []⟩
  | some kind => planBlocks py e m summary action kind

end

/-- the writes, until one fails: whether all returned, and the state then -/
def writeAll {σ : Type} (store : BlockStore σ) : List Write → σ → Bool × σ
  | [], s => (true, s)
  | w :: l, s => match store.block w.scope w.args w.ttl s with
    | (.ok _, s') => writeAll store l s'
    | (.error _, s') => (false, s')

section
variable {σ : Type} {store : BlockStore σ} {w : Write} {s s' : σ}

theorem writeAll_ok {entry : BlockEntry} (l : List Write)
    (h : store.block w.scope w.args w.ttl s = (.ok entry, s')) :
    writeAll store (w :: l) s = writeAll store l s' := by
  rw [writeAll, h]

theorem writeAll_error {x : Exc} (l : List Write)
    (h : store.block w.scope w.args w.ttl s = (.error x, s')) :
    writeAll store (w :: l) s = (false, s') := by
  rw [writeAll, h]

end

/-! ## what a trace shows -/

structure Seen where
  attempted : List Write
  written : List Attributes
  applied : List Attributes
  alerted : List Attributes

namespace Seen

instance : Append Seen where
  append x y := ⟨x.attempted ++ y.attempted, x.written ++ y.written, x.applied ++ y.applied,
    x.alerted ++ y.alerted⟩

def none : Seen := ⟨[], [], [], []⟩

theorem append_mk (a w p l a' w' p' l') : Seen.mk a w p l ++ Seen.mk a' w' p' l'
    = ⟨a ++ a', w ++ w', p ++ p', l ++ l'⟩ := rfl

theorem append_none (x : Seen) : x ++ none = x := by
  obtain ⟨a, w, p, l⟩ := x
  unfold none
  rw [append_mk, List.append_nil, List.append_nil, List.append_nil, List.append_nil]

end Seen

section
variable {Response : Type} (b : Builtins) (schemaVersion : Str)

/-- the attributes of the event that tells of a write -/
def appliedAttributes (entry : BlockEntry) (ttl : Option Int) : Attributes :=
  withAuthoritative (attrs (appliedItems b entry (subjectKind ttl).text ttl)) BLOCK_APPLIED
    schemaVersion

/-- a write that was attempted -/
def attemptedIn : Happening Response → Option Write
  | ⟨.block scope a ttl, _⟩ => some ⟨scope, a, ttl⟩
  | _ => none

/-- a write that returned, by the attributes of its event -/
def writtenIn : Happening Response → Option Attributes
  | ⟨.block _ _ ttl, .ok entry⟩ => some (appliedAttributes b schemaVersion entry ttl)
  | _ => none

/-- an event of the type that was emitted, by its attributes -/
def emittedIn (eventType : Str) : Happening Response → Option Attributes
  | ⟨.emit event _, _⟩ => if event.eventType = eventType then some event.attributes else none
  | _ => none

def seen (t : List (Happening Response)) : Seen where
  attempted := t.filterMap attemptedIn
  written := t.filterMap (writtenIn b schemaVersion)
  applied := t.filterMap (emittedIn BLOCK_APPLIED)
  alerted := t.filterMap (emittedIn ALERT)

variable {b schemaVersion}

theorem seen_append (t t' : List (Happening Response)) :
    seen b schemaVersion (t ++ t') = seen b schemaVersion t ++ seen b schemaVersion t' := by
  unfold seen
  rw [List.filterMap_append, List.filterMap_append, List.filterMap_append, List.filterMap_append]
  rfl

/-- an event of a block -/
theorem seen_emit_applied {event : AuditEvent} {level : Nat} {r : Except Exc Unit}
    (h : event.eventType = BLOCK_APPLIED) :
    seen b schemaVersion [(⟨.emit event level, r⟩ : Happening Response)]
      = ⟨[], [], [event.attributes], []⟩ := by
  have hne : ¬ event.eventType = ALERT := by
    rw [h]
    decide
  unfold seen
  simp only [List.filterMap_cons, List.filterMap_nil, attemptedIn, writtenIn, emittedIn,
    if_pos h, if_neg hne]

/-- an alert -/
theorem seen_emit_alert {event : AuditEvent} {level : Nat} {r : Except Exc Unit}
    (h : event.eventType = ALERT) :
    seen b schemaVersion [(⟨.emit event level, r⟩ : Happening Response)]
      = ⟨[], [], [], [event.attributes]⟩ := by
  have hne : ¬ event.eventType = BLOCK_APPLIED := by
    rw [h]
    decide
  unfold seen
  simp only [List.filterMap_cons, List.filterMap_nil, attemptedIn, writtenIn, emittedIn,
    if_pos h, if_neg hne]

end

/-! ## what is emitted -/

theorem alert_built (b : Builtins) (now : Nat) {schemaVersion : Str} (hs : schemaVersion ≠ [])
    (m : RuleMatch) : ∃ built, buildAlertEvent b now schemaVersion m = .ok built ∧
      built.event.eventType = ALERT ∧
      built.event.attributes = alertAttributes schemaVersion m :=
  buildEvent_ok hs (by decide) (flat_of_leaves rfl (by
    simp only [List.map_cons, List.map_nil]
    decide))

section
variable {Response σ : Type} {site : Site Response σ}

theorem runs_emitBuilt (built : Built) (s : σ) :
    Runs site.handler (emitBuilt built) s [⟨.emit built.event built.level, .ok ()⟩] (.ok ()) s :=
  Runs.perform _ s

/-- blocks that are announced -/
theorem runs_emitEach {b : Builtins} {schemaVersion : Str} (s : σ) : ∀ {results : List Built},
    (∀ built ∈ results, built.event.eventType = BLOCK_APPLIED) →
    ∃ t, Runs site.handler (emitEach results) s t (.ok ()) s ∧ seen b schemaVersion t
      = ⟨[], [], results.map fun built => built.event.attributes, []⟩
  | [], _ => ⟨[], .done _ s, rfl⟩
  | built :: l, h => by
    obtain ⟨t, hrun, hseen⟩ := @runs_emitEach b schemaVersion s l
      fun x hx => h x (List.mem_cons_of_mem _ hx)
    refine ⟨_, (runs_emitBuilt built s).bind hrun, ?_⟩
    rw [seen_append, hseen, seen_emit_applied (h built List.mem_cons_self)]
    rfl

end


/-! ## the loop over the scopes -/

section
variable {Response σ : Type} {site : Site Response σ} {py : Interp} {e : Enforcer} {m : RuleMatch}
  {summary : Summary}

/-- the events of a list of blocks, each written once -/
structure Announced (schemaVersion : Str) (results : List Built) (written : List Attributes) :
    Prop where
  types : ∀ built ∈ results, built.event.eventType = BLOCK_APPLIED
  attributes : results.map (fun built => built.event.attributes) = written

theorem Announced.snoc {schemaVersion : Str} {results : List Built} {written : List Attributes}
    {built : Built} (h : Announced schemaVersion results written)
    (ht : built.event.eventType = BLOCK_APPLIED) :
    Announced schemaVersion (results ++ [built]) (written ++ [built.event.attributes]) where
  types x hx := by
    rcases List.mem_append.mp hx with hx | hx
    · exact h.types x hx
    · rw [List.mem_singleton.mp hx]
      exact ht
  attributes := by
    rw [List.map_append, h.attributes]
    rfl

section
variable {action : RuleAction} {kind : ActionKind} {metadata : List (Str × Json)}
  {ttl : Option Int}

/-- the kind of a block is that of its `ttl` -/
theorem subjectKind_eq (ht : e.blockTtl py kind action m = .ok ttl) : subjectKind ttl = kind := by
  unfold subjectKind
  cases kind with
  | permanent =>
    obtain rfl := Except.ok.inj ht
    rfl
  | temp =>
    cases ttl with
    | none => exact absurd rfl (Enforcer.blockTtl_temp ht)
    | some n => rfl

/-- the write for a scope -/
def scopeWrite (e : Enforcer) (action : RuleAction) (m : RuleMatch) (metadata : List (Str × Json))
    (ttl : Option Int) (scope : BlockScope) : Write :=
  ⟨scope, e.blockArgs action m metadata, ttl⟩

/-- a block that is written -/
theorem runs_scope_ok {scope : BlockScope} {s s' : σ} {entry : BlockEntry}
    (ht : e.blockTtl py kind action m = .ok ttl)
    (hw : site.store.block scope (e.blockArgs action m metadata) ttl s = (.ok entry, s')) :
    ∃ t built, Runs site.handler (e.applyScope py m action kind metadata scope) s t (.ok built) s' ∧
      built.event.eventType = BLOCK_APPLIED ∧ seen py.toBuiltins e.schemaVersion t
        = ⟨[scopeWrite e action m metadata ttl scope], [built.event.attributes], [], []⟩ := by
  obtain ⟨built, hb, hrun⟩ := Enforcer.runs_applyScope_ok ht hw
  obtain ⟨built', hb', htype, hattrs⟩ := buildBlockAppliedEvent_ok py.toBuiltins (site.timeNs s')
    e.schema_ne entry kind.text ttl
  rw [hb] at hb'
  obtain rfl := Except.ok.inj hb'
  refine ⟨_, built, hrun, htype, ?_⟩
  rw [hattrs, ← subjectKind_eq ht]
  rfl

/-- every block is written -/
theorem runs_applyScopes_ok (ht : e.blockTtl py kind action m = .ok ttl) :
    ∀ (scopes : List BlockScope) (results : List Built) {s s' : σ} {before : List Attributes},
    writeAll site.store (scopes.map (scopeWrite e action m metadata ttl)) s = (true, s') →
    Announced e.schemaVersion results before →
    ∃ t results' written,
      Runs site.handler (e.applyScopes py m action kind metadata scopes results) s t
        (.ok results') s' ∧
      Announced e.schemaVersion results' (before ++ written) ∧
      seen py.toBuiltins e.schemaVersion t
        = ⟨scopes.map (scopeWrite e action m metadata ttl), written, [], []⟩
  | [], results, s, s', before, hw, hr => by
    cases hw
    rw [← List.append_nil before] at hr
    exact ⟨[], results, [], .done _ s, hr, rfl⟩
  | scope :: scopes, results, s, s', before, hw, hr => by
    rcases hentry : site.store.block scope (e.blockArgs action m metadata) ttl s with
      ⟨x | entry, s₁⟩
    · rw [List.map_cons, writeAll_error _ hentry] at hw
      exact absurd (congrArg Prod.fst hw) Bool.false_ne_true
    · rw [List.map_cons, writeAll_ok _ hentry] at hw
      obtain ⟨t₁, built, hrun₁, htype, hseen₁⟩ := runs_scope_ok ht hentry
      obtain ⟨t₂, results', written, hrun₂, hr', hseen₂⟩ :=
        runs_applyScopes_ok ht scopes _ hw (hr.snoc htype)
      rw [List.append_assoc] at hr'
      refine ⟨_, results', _, hrun₁.bind hrun₂, hr', ?_⟩
      rw [seen_append, hseen₁, hseen₂]
      rfl

/-- a block fails: those before it are written, none after it is tried -/
theorem runs_applyScopes_error (ht : e.blockTtl py kind action m = .ok ttl) :
    ∀ (scopes : List BlockScope) (results : List Built) {s s' : σ},
    writeAll site.store (scopes.map (scopeWrite e action m metadata ttl)) s = (false, s') →
    ∃ t x n written,
      Runs site.handler (e.applyScopes py m action kind metadata scopes results) s t
        (.error x) s' ∧
      n < scopes.length ∧ written.length = n ∧ seen py.toBuiltins e.schemaVersion t
        = ⟨(scopes.map (scopeWrite e action m metadata ttl)).take (n + 1), written, [], []⟩
  | [], results, s, s', hw => absurd (congrArg Prod.fst hw) Bool.false_ne_true.symm
  | scope :: scopes, results, s, s', hw => by
    rcases hentry : site.store.block scope (e.blockArgs action m metadata) ttl s with
      ⟨x | entry, s₁⟩
    · rw [List.map_cons, writeAll_error _ hentry] at hw
      obtain rfl := congrArg Prod.snd hw
      exact ⟨_, x, 0, [], (Enforcer.runs_applyScope_error ht hentry).bind_error, Nat.succ_pos _, rfl,
        rfl⟩
    · rw [List.map_cons, writeAll_ok _ hentry] at hw
      obtain ⟨t₁, built, hrun₁, htype, hseen₁⟩ := runs_scope_ok ht hentry
      obtain ⟨t₂, x, n, written, hrun₂, hn, hlen, hseen₂⟩ := runs_applyScopes_error ht scopes _ hw
      refine ⟨_, x, n + 1, built.event.attributes :: written, hrun₁.bind hrun₂, Nat.succ_lt_succ hn,
        congrArg Nat.succ hlen, ?_⟩
      rw [seen_append, hseen₁, hseen₂]
      rfl

end

/-! ## a match -/

/-- enforce a match and emit what comes of it -/
def announce (py : Interp) (e : Enforcer) (m : RuleMatch) (summary : Summary) :
    Routine Response Unit := do
  let results ← e.enforce py m summary
  emitEach results

section
variable {plan : Plan} {s s' : σ}

/-- the two ways `planOf` comes by a plan -/
theorem planOf_ok (hp : planOf py e m summary = .ok plan) :
    ∃ action, e.resolveAction py m = .ok action ∧
      ((e.actionKind action m = none ∧ plan = ⟨[], if action.action = str "alert" then
          [alertAttributes e.schemaVersion m] else []⟩) ∨
        ∃ kind, e.actionKind action m = some kind ∧
          planBlocks py e m summary action kind = .ok plan) := by
  obtain ⟨action, ha, hp⟩ := ok_of_bind hp
  refine ⟨action, ha, ?_⟩
  cases hk : e.actionKind action m with
  | none =>
    rw [hk] at hp
    exact .inl ⟨rfl, (Except.ok.inj hp).symm⟩
  | some kind =>
    rw [hk] at hp
    exact .inr ⟨kind, rfl, hp⟩

theorem planBlocks_ok {action : RuleAction} {kind : ActionKind}
    (hp : planBlocks py e m summary action kind = .ok plan) :
    ∃ scopes metadata, e.registry.blockScopes summary (some action.scopes) = .ok scopes ∧
      Enforcer.safeMetadata py m = .ok metadata ∧
      ((scopes = [] ∧ plan = ⟨[], []⟩) ∨ ∃ ttl, e.blockTtl py kind action m = .ok ttl ∧
        plan = ⟨scopes.map (scopeWrite e action m metadata ttl), []⟩) := by
  obtain ⟨scopes, hs, hp⟩ := ok_of_bind hp
  obtain ⟨metadata, hm, hp⟩ := ok_of_bind hp
  refine ⟨scopes, metadata, hs, hm, ?_⟩
  by_cases hnil : scopes = []
  · rw [if_pos hnil] at hp
    exact .inl ⟨hnil, (Except.ok.inj hp).symm⟩
  · rw [if_neg hnil] at hp
    obtain ⟨ttl, ht, hp⟩ := ok_of_bind hp
    exact .inr ⟨ttl, ht, (Except.ok.inj hp).symm⟩

/-- no plan for the blocks: nothing is done -/
theorem runs_apply_error {x : Exc} {action : RuleAction} {kind : ActionKind}
    (hk : e.actionKind action m = some kind)
    (hp : planBlocks py e m summary action kind = .error x) :
    Runs site.handler (e.apply py m action summary) s [] (.error x) s := by
  unfold planBlocks at hp
  unfold Enforcer.apply
  rw [hk]
  cases hs : e.registry.blockScopes summary (some action.scopes) with
  | error y =>
    simp only [hs, bind, Except.bind] at hp
    obtain rfl := Except.error.inj hp
    exact Runs.ofExcept_error rfl
  | ok scopes =>
    refine Runs.ofExcept_ok rfl ?_
    cases hm : Enforcer.safeMetadata py m with
    | error y =>
      simp only [hs, hm, bind, Except.bind] at hp
      obtain rfl := Except.error.inj hp
      exact Runs.ofExcept_error rfl
    | ok metadata =>
      refine Runs.ofExcept_ok rfl ?_
      simp only [hs, hm, bind, Except.bind] at hp
      cases scopes with
      | nil => cases hp
      | cons scope scopes =>
        rw [if_neg (List.cons_ne_nil _ _)] at hp
        cases ht : e.blockTtl py kind action m with
        | ok ttl =>
          simp only [ht] at hp
          cases hp
        | error y =>
          simp only [ht] at hp
          obtain rfl := Except.error.inj hp
          exact (Runs.ofExcept_error ht).bind_error

/-- no plan: nothing is done -/
theorem runs_announce_error {x : Exc} (hp : planOf py e m summary = .error x) :
    Runs site.handler (announce py e m summary) s [] (.error x) s := by
  refine Runs.bind_error ?_
  unfold planOf at hp
  cases ha : e.resolveAction py m with
  | error y =>
    rw [ha] at hp
    obtain rfl := Except.error.inj hp
    exact Runs.ofExcept_error ha
  | ok action =>
    simp only [ha, bind, Except.bind] at hp
    refine Runs.ofExcept_ok ha ?_
    cases hk : e.actionKind action m with
    | none =>
      rw [hk] at hp
      cases hp
    | some kind =>
      rw [hk] at hp
      exact runs_apply_error hk hp

/-- an action that does not block -/
theorem runs_apply_alert {action : RuleAction} (hk : e.actionKind action m = none) (s : σ) :
    ∃ t results, Runs site.handler (e.apply py m action summary) s t (.ok results) s ∧
      seen py.toBuiltins e.schemaVersion t = .none ∧
      ∃ t', Runs site.handler (emitEach results) s t' (.ok ()) s ∧
        seen py.toBuiltins e.schemaVersion t' = ⟨[], [], [], if action.action = str "alert" then
          [alertAttributes e.schemaVersion m] else []⟩ := by
  unfold Enforcer.apply
  rw [hk]
  dsimp only
  by_cases halert : action.action = str "alert"
  · rw [if_pos halert, if_pos halert]
    obtain ⟨built, hb, htype, hattrs⟩ := alert_built py.toBuiltins (site.timeNs s) e.schema_ne m
    refine ⟨_, [built], (Runs.perform _ s).bind (Runs.ofExcept_ok hb (.done _ s)), rfl, _,
      (runs_emitBuilt built s).bind (.done _ s), ?_⟩
    rw [List.append_nil, seen_emit_alert htype, hattrs]
  · rw [if_neg halert, if_neg halert]
    exact ⟨[], [], .done _ s, rfl, [], .done _ s, rfl⟩

/-- every write returns: each is told of -/
theorem runs_announce_ok (hp : planOf py e m summary = .ok plan)
    (hw : writeAll site.store plan.writes s = (true, s')) :
    ∃ t written, Runs site.handler (announce py e m summary) s t (.ok ()) s' ∧
      seen py.toBuiltins e.schemaVersion t = ⟨plan.writes, written, written, plan.alerts⟩ := by
  obtain ⟨action, ha, ⟨hk, rfl⟩ | ⟨kind, hk, hb⟩⟩ := planOf_ok hp
  · obtain rfl := congrArg Prod.snd hw
    obtain ⟨t, results, hrun, hseen, t', hrun', hseen'⟩ :=
      @runs_apply_alert Response _ site py e m summary action hk s
    refine ⟨t ++ t', [], (Runs.ofExcept_ok ha hrun).bind hrun', ?_⟩
    rw [seen_append, hseen, hseen']
    rfl
  · obtain ⟨scopes, metadata, hs, hm, h⟩ := planBlocks_ok hb
    have happly : ∃ t results written,
        Runs site.handler (e.apply py m action summary) s t (.ok results) s' ∧
        Announced e.schemaVersion results written ∧
        seen py.toBuiltins e.schemaVersion t = ⟨plan.writes, written, [], []⟩ ∧
        plan.alerts = [] := by
      unfold Enforcer.apply
      rw [hk]
      rcases h with ⟨rfl, rfl⟩ | ⟨ttl, ht, rfl⟩
      · obtain rfl := congrArg Prod.snd hw
        exact ⟨[], [], [], Runs.ofExcept_ok hs (Runs.ofExcept_ok hm (.done _ s)), ⟨nofun, rfl⟩, rfl,
          rfl⟩
      · obtain ⟨t, results, written, hrun, hr, hseen⟩ :=
          runs_applyScopes_ok ht scopes [] hw ⟨nofun, rfl⟩
        exact ⟨t, results, written, Runs.ofExcept_ok hs (Runs.ofExcept_ok hm hrun), hr, hseen, rfl⟩
    obtain ⟨t, results, written, hrun, hr, hseen, halerts⟩ := happly
    obtain ⟨t', hrun', hseen'⟩ :=
      @runs_emitEach Response σ site py.toBuiltins e.schemaVersion s' results hr.types
    refine ⟨t ++ t', written, (Runs.ofExcept_ok ha hrun).bind hrun', ?_⟩
    rw [seen_append, hseen, hseen', hr.attributes, halerts, Seen.append_mk, List.append_nil,
      List.append_nil]
    rfl

/-- a write fails: none is told of, and none after it is tried -/
theorem runs_announce_failed (hp : planOf py e m summary = .ok plan)
    (hw : writeAll site.store plan.writes s = (false, s')) :
    ∃ t x n written, Runs site.handler (announce py e m summary) s t (.error x) s' ∧
      n < plan.writes.length ∧ written.length = n ∧ plan.alerts = [] ∧
      seen py.toBuiltins e.schemaVersion t = ⟨plan.writes.take (n + 1), written, [], []⟩ := by
  obtain ⟨action, ha, ⟨hk, rfl⟩ | ⟨kind, hk, hb⟩⟩ := planOf_ok hp
  · exact absurd (congrArg Prod.fst hw) Bool.false_ne_true.symm
  · obtain ⟨scopes, metadata, hs, hm, ⟨rfl, rfl⟩ | ⟨ttl, ht, rfl⟩⟩ := planBlocks_ok hb
    · exact absurd (congrArg Prod.fst hw) Bool.false_ne_true.symm
    · obtain ⟨t, x, n, written, hrun, hn, hlen, hseen⟩ := runs_applyScopes_error ht scopes [] hw
      refine ⟨t, x, n, written, Runs.bind_error (Runs.ofExcept_ok ha ?_), ?_, hlen, rfl, hseen⟩
      · unfold Enforcer.apply
        rw [hk]
        exact Runs.ofExcept_ok hs (Runs.ofExcept_ok hm hrun)
      · rw [List.length_map]
        exact hn

end

end

end SecAudit
