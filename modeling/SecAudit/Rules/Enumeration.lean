import SecAudit.Core.Legible
import SecAudit.Rules.Isolation
import SecAudit.Rules.Live
import SecAudit.Rules.ScopedHistory
import SecAudit.Rules.Survival

/-!
# Enumerated resources

* `ResourceEnumerationRule`  counts the paths that an address has asked for under one route;
* `EnumerationSite` the rule around a history in memory, everything else being as it may;
* `consulted`       the earlier events that the rule looks at, and `distinctPaths` the paths it
                    counts;
* `Holds`           an engine that holds the rule among others;
* `Intact`          an event whose address and type the scrub leaves alone, its texts short;
* `rows_of_run`     the rows under a key after a run;
* `enumerates_iff`  the rule matches exactly when it counts as many paths as its threshold.
-/

set_option linter.unusedVariables false

namespace SecAudit
open Py Prog

/-! ## the rule -/

/-- `_HTTP_RESPONSE_EVENTS` -/
def HTTP_RESPONSE_EVENTS : List Str :=
  [str "http.response.success", str "http.response.redirect", str "http.response.client_error",
    str "http.response.server_error"]

structure ResourceEnumerationRule where
  threshold : Int := 20
  windowSeconds : Int := 300
  severity : Int := 7
  message : Str := str "Many distinct resources accessed under one route"
  tags : List Str := [str "http", str "enumeration"]
  decision : Option Str := none

namespace ResourceEnumerationRule

def rule : Rule where
  name := str "resource_enumeration"
  eventTypes := some HTTP_RESPONSE_EVENTS

def context : ContextRequirements where
  scopes := [str "ip"]
  eventTypes := some HTTP_RESPONSE_EVENTS
  windowSeconds := 300
  maxEvents := 100

section
variable (b : Builtins)

/-- `_route_and_path`, unless one of them is empty -/
def routeAndPath (event : RuleEvent) : Option (Str × Str) :=
  let route := strOf b (orElse b (RuleEvent.orGet b (event.field (str "route_pattern"))
    (event.field (str "route"))) (.string []))
  let path := (event.url b).path
  if route = [] ∨ path = [] then none else some (route, path)

def historyAttributes (event : RuleEvent) : Contribution :=
  match routeAndPath b event with
  | none => .none
  | some (route, path) =>
    .mapping (.ok [(.str (str "route"), .str route), (.str (str "path"), .str path)])

/-- the path that the rule has left in a row, if it did for `route` -/
def seenPath (route : Str) (row : Dict Str Json) : Option Str :=
  match row.get (str "rule_attrs") with
  | some (.obj attrs) =>
    match getItem rule.name attrs with
    | some (.obj mine) =>
      match getItem (str "route") mine with
      | some (.string r) =>
        if r = route then ((getItem (str "path") mine).filter (truthy b)).map (strOf b) else none
      | _ => none
    | _ => none
  | _ => none

variable (self : ResourceEnumerationRule) (num : FloatLit → ℚ)

def evaluate (event : RuleEvent) (ctx : RuleContext) (history : Option ScopedHistoryReader) :
    Except Exc Outcome :=
  match routeAndPath b event, history with
  | some (route, path), some history => do
    let rows ← history.events b num (str "ip") none none none none (some self.windowSeconds)
    let distinct := (path :: rows.filterMap (seenPath b route)).dedup
    if (distinct.length : Int) < self.threshold then return .none
    else return .found (makeMatch b rule.name self.severity ctx.now self.message event self.tags
      [(.str (str "distinct_paths"), .int distinct.length), (.str (str "route"), .str route)]
      self.decision none)
  | _, _ => .ok .none

end

end ResourceEnumerationRule

/-! ## the site -/

/-- the history, the time in milliseconds, and the state of everything else -/
structure EnumerationState (τ : Type) where
  history : MemoryHistory
  time : Int
  rest : τ

/-- the rule, the history store, and everything else -/
structure EnumerationSite (Response τ : Type) where
  b : Builtins
  self : ResourceEnumerationRule
  store : MemoryEventHistoryStore
  /-- the float of a time -/
  stamp : Int → FloatLit
  num : FloatLit → ℚ
  /-- the other rules and the rest, which see the history and the time -/
  around : MemoryHistory → Int → Site Response τ

namespace EnumerationSite

section
variable {Response τ : Type} (e : EnumerationSite Response τ)

/-- a time in seconds -/
def seconds (t : Int) : ℚ := e.num (e.stamp t)

/-- the reader that the rule is given -/
def reader (history : MemoryHistory) (ctx : RuleContext) : ScopedHistoryReader where
  history := some history
  scopeKeys := ctx.scopeKeys
  requirements := some ResourceEnumerationRule.context
  now := e.seconds ctx.now

/-- `append`, where neither the server nor `uuid4` has a part -/
def appended (summary : Summary) (scopeKeys : List ScopeKey) (recordedAt : Int) : Append where
  summary := .ofItems summary
  scopeKeys
  recordedAt := e.stamp recordedAt
  uuid := ⟨[], List.not_mem_nil⟩
  now := e.seconds recordedAt

/-- a call that is answered by everything else -/
def outside {α : Type} (call : Site Response τ → τ → α × τ) (s : EnumerationState τ) :
    α × EnumerationState τ :=
  let answer := call (e.around s.history s.time) s.rest
  (answer.1, { s with rest := answer.2 })

def site : Site Response (EnumerationState τ) where
  clock s := s.time
  timeNs s := (e.around s.history s.time).timeNs s.rest
  ruleEvaluate rule event ctx s :=
    if rule = ResourceEnumerationRule.rule then
      (e.self.evaluate e.b e.num event ctx (some (e.reader s.history ctx)), s)
    else e.outside (fun site => site.ruleEvaluate rule event ctx) s
  ruleAttributes rule event ctx s :=
    if rule = ResourceEnumerationRule.rule then
      (.ok (ResourceEnumerationRule.historyAttributes e.b event), s)
    else e.outside (fun site => site.ruleAttributes rule event ctx) s
  sink i m s := e.outside (fun site => site.sink i m) s
  append summary scopeKeys recordedAt s :=
    let history := e.store.append s.history (e.appended summary scopeKeys recordedAt)
    (.ok (), { s with history })
  store := {
    block := fun scope a ttl s => e.outside (fun site => site.store.block scope a ttl) s
    unblock := fun scope reason revokedBy s =>
      e.outside (fun site => site.store.unblock scope reason revokedBy) s
    firstActive := fun scopes s => e.outside (fun site => site.store.firstActive scopes) s }
  getResponse s := e.outside Site.getResponse s

end

end EnumerationSite

/-- an event, with the time in milliseconds when it is evaluated -/
structure Arrival where
  time : Int
  event : RuleEvent

namespace EnumerationSite

section
variable {Response τ : Type} (e : EnumerationSite Response τ) (engine : RuleEngine Response)
  (frames : Nat)

/-- one evaluation in full -/
def run (s : EnumerationState τ) (x : Arrival) :
    Except Exc (List RuleMatch) × EnumerationState τ :=
  exec e.site.handler (engine.evaluate frames x.event false) { s with time := x.time }

/-- the state after a run -/
def after (s : EnumerationState τ) (xs : List Arrival) : EnumerationState τ :=
  xs.foldl (fun s x => (e.run engine frames s x).2) s

/-! ## what the rule looks at -/

/-- the address that an event is filed under -/
def addressOf (x : Arrival) : Option Str := cleaned (textAt (str "srcip") x.event.fields)

/-- the route and the path of a response -/
def access (x : Arrival) : Option (Str × Str) :=
  if x.event.eventType ∈ HTTP_RESPONSE_EVENTS then
    ResourceEnumerationRule.routeAndPath e.b x.event
  else none

/-- the path of an event of `route` -/
def pathUnder (route : Str) (x : Arrival) : Option Str :=
  (e.access x).bind fun p => if p.1 = route then some p.2 else none

/-- the earlier events that the rule looks at for `x`, the newest first: of those that are kept
under its address, the newest hundred that are responses within the window -/
def consulted (x : Arrival) (earlier : List Arrival) : List Arrival :=
  match addressOf x with
  | none => []
  | some address =>
    (((lastSlice e.store.maxEventsPerKey
      (earlier.filter fun y => decide (addressOf y = some address))).filter fun y =>
        decide (e.seconds x.time - (min 300 e.self.windowSeconds : Int) < e.seconds y.time) &&
          decide (y.event.eventType ∈ HTTP_RESPONSE_EVENTS)).reverse).take 100

/-- how many paths of the route there are among `path` and those of the earlier events -/
def distinctPaths (x : Arrival) (route path : Str) (earlier : List Arrival) : Nat :=
  (path :: (e.consulted x earlier).filterMap (e.pathUnder route)).dedup.length

/-! ## the appends of a run -/

/-- the history summary of an event -/
def summaryOf (x : Arrival) : Summary :=
  (createHistorySummary engine.sensitiveKeys engine.valuePatterns x.event).toOption.getD []

def scopeKeysOf (x : Arrival) : List ScopeKey :=
  ((ScopeRegistry.default e.b).scopeKeys (summaryOf engine x)).toOption.getD []

end

end EnumerationSite

/-- an event, with what the rules have left for its row -/
structure Filing where
  arrival : Arrival
  kept : List (Str × Json)

namespace EnumerationSite

section
variable {Response τ : Type} (e : EnumerationSite Response τ) (engine : RuleEngine Response)

/-- what is appended for an event -/
def appendOf (y : Filing) : Append :=
  e.appended (withAttributes (summaryOf engine y.arrival) y.kept)
    (e.scopeKeysOf engine y.arrival) y.arrival.time

/-- what is appended in a run -/
def appendsOf (ys : List Filing) : List Append :=
  (ys.map (e.appendOf engine)).filter fun a => decide (a.scopeKeys ≠ [])

/-- the rule has left the route and the path of a response -/
def Left (y : Filing) : Prop :=
  getItem ResourceEnumerationRule.rule.name y.kept = (e.access y.arrival).map fun p =>
    .obj [(str "route", .string (limitString p.1 4096)),
      (str "path", .string (limitString p.2 4096))]

/-- the key of an address -/
def addressKey (address : Str) : Str := str "ip" ++ str ":" ++ address

end

end EnumerationSite

/-- the calls that do not append -/
def NoAppend {Response : Type} : (β : Type) → Eff Response β → Prop
  | _, .append _ _ _ => False
  | _, _ => True

namespace EnumerationSite

section
variable {Response τ : Type}

/-- a rule besides: it returns a match under its own name or none, unless the engine lets other
results pass, and what it contributes can be made JSON-safe -/
structure Mannered (e : EnumerationSite Response τ) (engine : RuleEngine Response) (frames : Nat)
    (rule : Rule) : Prop where
  found : ∀ history now event ctx t m,
    ((e.around history now).ruleEvaluate rule event ctx t).1 = .ok (.found m) →
    m.ruleName = rule.name
  proper : ∀ history now event ctx t,
    ((e.around history now).ruleEvaluate rule event ctx t).1 = .ok .other → engine.failOpen = true
  contributes : ∀ history now event ctx t items,
    ((e.around history now).ruleAttributes rule event ctx t).1 = .ok (.mapping items) →
    ∃ l safe, items = .ok l ∧ jsonSafe frames (.mapping l) = .ok safe

/-- an engine that holds the rule among others, with the default scopes and sinks that do not
append -/
structure Holds (e : EnumerationSite Response τ) (engine : RuleEngine Response) (frames : Nat) :
    Prop where
  rule : ResourceEnumerationRule.rule ∈ engine.rules
  names : (engine.rules.map Rule.name).Nodup
  others : ∀ rule ∈ engine.rules, rule ≠ ResourceEnumerationRule.rule →
    Mannered e engine frames rule
  history : engine.history = true
  extractors : engine.historyExtractors = (ScopeRegistry.default e.b).extractors
  sinks : ∀ sink ∈ engine.resultSinks, ∀ m, Only NoAppend (sink m)

/-- the redaction of the history -/
def historyRedaction (engine : RuleEngine Response) : Redaction :=
  ⟨engine.sensitiveKeys, engine.valuePatterns, SCOPE_KEY_FIELDS⟩

/-- an event whose address and type the history shows as they are, and whose address, route and
path are within the limit of its texts -/
structure Intact (e : EnumerationSite Response τ) (engine : RuleEngine Response) (x : Arrival) :
    Prop where
  short : ShortText (getItem (str "srcip") x.event.fields)
  address : shown (historyRedaction engine) (str "srcip") (textAt (str "srcip") x.event.fields)
    = textAt (str "srcip") x.event.fields
  type : shown (historyRedaction engine) (str "event_type") x.event.eventType = x.event.eventType
  within : ∀ route path, ResourceEnumerationRule.routeAndPath e.b x.event = some (route, path) →
    route.length ≤ 4096 ∧ path.length ≤ 4096

/-! ## the keys of an event -/

variable {e : EnumerationSite Response τ} {engine : RuleEngine Response} {frames : Nat}
  {s : EnumerationState τ} {x : Arrival} {xs : List Arrival} {y : Filing} {ys : List Filing}

theorem summary_eq : createHistorySummary engine.sensitiveKeys engine.valuePatterns x.event
    = .ok (summaryOf engine x) := by
  obtain ⟨summary, h⟩ := createHistorySummary_ok engine.sensitiveKeys engine.valuePatterns x.event
  unfold summaryOf
  rw [h]
  rfl

theorem scopeKeys_eq : (ScopeRegistry.default e.b).scopeKeys (summaryOf engine x)
      = .ok (e.scopeKeysOf engine x) ∧
    (e.scopeKeysOf engine x).map ScopeKey.pair
      = readPairs (defaultReaders e.b) (summaryOf engine x) := by
  obtain ⟨keys, h, hpairs⟩ := @default_scopeKeys (summaryOf engine x) e.b
  unfold scopeKeysOf
  rw [h]
  exact ⟨rfl, hpairs⟩

/-- the keys of an event are distinct -/
theorem keys_nodup : (e.appendOf engine y).keys.Nodup :=
  extractScopeKeys_nodup scopeKeys_eq.1 List.nodup_nil

/-- the scrub leaves the address of an intact event where it was -/
theorem address_kept (h : Intact e engine x) :
    cleanKey e.b (getItem (str "srcip") (summaryOf engine x)) = addressOf x := by
  have hspared := h.address
  unfold shown at hspared
  rw [show (historyRedaction engine).sensitiveNorm (normalizeKey (str "srcip")) = false from
    allowed_field (by decide), Bool.false_or] at hspared
  rw [summary_field e.b summary_eq (by decide) h.short]
  refine congrArg cleaned ?_
  unfold ScopeText.kept fieldText
  dsimp only
  by_cases hred : (historyRedaction engine).isSensitiveValue
      (textAt (str "srcip") x.event.fields) = true
  · rw [if_pos hred] at hspared
    rw [← hspared]
    exact ite_self _
  · rw [if_neg (by
      rw [Bool.and_eq_true]
      exact fun hboth => hred hboth.1)]

/-- the key of its address, as the reader is given it -/
theorem keysOf_address (h : Intact e engine x) (history : MemoryHistory) (now : Int) :
    (e.reader history ⟨now, e.scopeKeysOf engine x⟩).keysOf (str "ip")
      = ((addressOf x).map addressKey).toList := by
  have hip : ((e.scopeKeysOf engine x).filter fun k => decide (k.scope = str "ip")).map
      ScopeKey.pair = (addressOf x).toList.map fun a => (str "ip", a) := by
    rw [show (fun k : ScopeKey => decide (k.scope = str "ip"))
      = (fun p : Str × Str => decide (p.1 = str "ip")) ∘ ScopeKey.pair from rfl,
      ← List.filter_map, scopeKeys_eq.2,
      readPairs_filter _ _ fun name => decide (name = str "ip"), ← address_kept h]
    exact List.append_nil _
  have hstrings := congrArg (List.map fun p : Str × Str => p.1 ++ str ":" ++ p.2) hip
  rw [List.map_map, List.map_map] at hstrings
  refine hstrings.trans ?_
  rcases addressOf x with _ | a <;> rfl

/-- an event has the key of an address when it is filed under the address -/
theorem mem_keys (h : Intact e engine y.arrival) {a : Str} :
    addressKey a ∈ (e.appendOf engine y).keys ↔ addressOf y.arrival = some a := by
  show addressKey a ∈ (e.scopeKeysOf engine y.arrival).map ScopeKey.asString ↔ _
  have hread : ∀ k ∈ e.scopeKeysOf engine y.arrival, ∃ r ∈ defaultReaders e.b,
      r.1 = k.scope ∧ k.key ∈ r.2 (summaryOf engine y.arrival) := fun k hk =>
    mem_readPairs.mp (scopeKeys_eq.2 ▸ List.mem_map_of_mem hk)
  rw [List.mem_map, ← address_kept h]
  constructor
  · rintro ⟨k, hk, hstring⟩
    obtain ⟨r, hr, hscope, hkey⟩ := hread k hk
    -- the scopes start with letters of their own
    have hhead : k.scope.head? = (str "ip").head? := by
      rw [← asString_head, hstring]
      rfl
    rw [← hscope] at hhead
    unfold defaultReaders at hr
    simp only [List.mem_cons, List.not_mem_nil, or_false] at hr
    obtain rfl | rfl | rfl | rfl := hr
    · exact absurd hhead (by decide : (str "user").head? ≠ (str "ip").head?)
    · exact absurd hhead (by decide : (str "session").head? ≠ (str "ip").head?)
    · have hstring' : k.scope ++ str ":" ++ k.key = str "ip" ++ str ":" ++ a := hstring
      rw [← hscope] at hstring'
      rw [← List.append_cancel_left hstring']
      exact hkey
    · exact absurd hhead (by decide : (str "route").head? ≠ (str "ip").head?)
  · intro h
    have hpair : (str "ip", a) ∈ (e.scopeKeysOf engine y.arrival).map ScopeKey.pair := by
      rw [scopeKeys_eq.2, mem_readPairs]
      exact ⟨_, List.mem_cons_of_mem _ (List.mem_cons_of_mem _ List.mem_cons_self), rfl, h⟩
    obtain ⟨k, hk, hp⟩ := List.mem_map.mp hpair
    refine ⟨k, hk, ?_⟩
    obtain ⟨hs, hkey⟩ := Prod.mk.inj hp
    unfold ScopeKey.asString
    rw [hs, hkey]
    rfl

/-! ## the rows -/

theorem withAttributes_nodup (kept : List (Str × Json)) :
    ((withAttributes (summaryOf engine x) kept).map Prod.fst).Nodup := by
  unfold withAttributes
  split
  · exact summary_nodup summary_eq
  · exact nodup_setItem (summary_nodup summary_eq)

/-- what a row holds besides its time -/
theorem get_entry {k : Str} (hk : k ≠ str "recorded_at") :
    (e.appendOf engine y).entry.get k
      = getItem k (withAttributes (summaryOf engine y.arrival) y.kept) := by
  show ((Dict.ofItems _).set _ _).get k = _
  rw [Dict.get_set, if_neg hk, Dict.get_ofItems (withAttributes_nodup _)]
  rfl

theorem limitString_mem {types : List Str} {n : Nat} (h : ∀ u ∈ types, u.length ≤ n) (t : Str) :
    limitString t n ∈ types ↔ t ∈ types := by
  by_cases ht : t.length ≤ n
  · rw [limitString_of_le ht]
  · refine iff_of_false (fun hm => ?_) fun hm => ht (h t hm)
    have hlen := h _ hm
    unfold limitString at hlen
    rw [if_neg ht, List.length_append, List.length_take_of_le (by omega)] at hlen
    have hmark : TRUNCATED.length = 11 := by decide
    omega

/-- the type of an intact event is that of a response in its row when it is one -/
theorem entry_type (h : Intact e engine y.arrival) :
    typeText e.b ((e.appendOf engine y).entry.get (str "event_type")) ∈ HTTP_RESPONSE_EVENTS ↔
      y.arrival.event.eventType ∈ HTTP_RESPONSE_EVENTS := by
  have hget : (e.appendOf engine y).entry.get (str "event_type")
      = getItem (str "event_type") (summaryOf engine y.arrival) := by
    rw [get_entry (by decide)]
    unfold withAttributes
    split
    · rfl
    · exact getItem_setItem_other _ _ (by decide)
  obtain ⟨hnone, hsome⟩ := summary_item (@summary_eq Response engine y.arrival) (str "event_type")
  have hraw : getItem (str "event_type") (historyItems y.arrival.event.toDict)
      = filled (str "event_type") y.arrival.event.fields := getItem_history (by decide) _
  unfold filled at hraw
  rw [y.arrival.event.type_item] at hraw
  rw [hget]
  by_cases hempty : y.arrival.event.eventType = []
  · rw [hempty] at hraw ⊢
    rw [hnone hraw]
    exact iff_of_false (show ([] : Str) ∉ HTTP_RESPONSE_EVENTS by decide) (by decide)
  · rw [Option.filter_some, if_pos (by
      cases ht : y.arrival.event.eventType with
      | nil => exact absurd ht hempty
      | cons => rfl)] at hraw
    obtain ⟨m, m', w, j, hw, hj, hg⟩ := hsome _ hraw
    obtain rfl : w = .str (shown (historyRedaction engine) (str "event_type")
      y.arrival.event.eventType) := scrubbed_text hw
    rw [h.type] at hj
    cases hj
    rw [hg]
    have htext : typeText e.b (some (.string (limitString y.arrival.event.eventType 4096)))
        = limitString y.arrival.event.eventType 4096 := by
      unfold typeText
      rcases limitString y.arrival.event.eventType 4096 with _ | ⟨c, t⟩ <;> rfl
    rw [htext]
    exact limitString_mem (show ∀ u ∈ HTTP_RESPONSE_EVENTS, u.length ≤ 4096 by decide) _

theorem entry_time : MemoryEventHistoryStore.recordedOf e.num (e.appendOf engine y).entry
    = e.seconds y.arrival.time := MemoryEventHistoryStore.recordedOf_entry _

theorem routeAndPath_ne {b : Builtins} {event : RuleEvent} {route path : Str}
    (h : ResourceEnumerationRule.routeAndPath b event = some (route, path)) :
    route ≠ [] ∧ path ≠ [] := by
  unfold ResourceEnumerationRule.routeAndPath at h
  dsimp only at h
  split at h
  · cases h
  · rename_i hne
    rw [not_or] at hne
    cases h
    exact hne

theorem access_eq {route path : Str} (h : e.access x = some (route, path)) :
    x.event.eventType ∈ HTTP_RESPONSE_EVENTS ∧
      ResourceEnumerationRule.routeAndPath e.b x.event = some (route, path) := by
  unfold access at h
  split at h
  · rename_i hx
    exact ⟨hx, h⟩
  · cases h

/-- the attributes of a row -/
theorem entry_attrs : (e.appendOf engine y).entry.get (str "rule_attrs")
    = if y.kept = [] then none else some (.obj y.kept) := by
  rw [get_entry (by decide)]
  unfold withAttributes
  split
  · exact summary_unlisted summary_eq (by decide)
  · exact getItem_setItem_same ..

/-- **the rule finds in a row what it left there** -/
theorem seenPath_entry (h : Intact e engine y.arrival) (hleft : e.Left y) (route : Str) :
    ResourceEnumerationRule.seenPath e.b route (e.appendOf engine y).entry
      = e.pathUnder route y.arrival := by
  unfold ResourceEnumerationRule.seenPath pathUnder
  unfold Left at hleft
  rw [entry_attrs]
  rcases ha : e.access y.arrival with _ | ⟨r, p⟩
  · rw [ha] at hleft
    split
    · rename_i attrs hattrs
      split at hattrs
      · cases hattrs
      · cases hattrs
        rw [hleft]
        rfl
    · rfl
  · have hp := routeAndPath_ne (access_eq ha).2
    obtain ⟨hr, hp'⟩ := h.within r p (access_eq ha).2
    rw [ha, Option.map_some, limitString_of_le hr, limitString_of_le hp'] at hleft
    have hne : y.kept ≠ [] := by
      intro hnil
      rw [hnil] at hleft
      cases hleft
    rw [if_neg hne]
    dsimp only
    rw [hleft]
    show (if r = route then _ else _ : Option Str) = if r = route then _ else _
    split
    · show ((some (Json.string p)).filter (truthy e.b)).map (strOf e.b) = _
      rw [Option.filter_some, if_pos]
      · rfl
      · show (!p.isEmpty) = true
        rw [List.isEmpty_eq_false_iff.mpr hp.2]
        rfl
    · rfl

/-- the appends under the key of an address are those of the events filed under it -/
theorem logOf_appendsOf (h : ∀ y ∈ ys, Intact e engine y.arrival) (a : Str) :
    logOf (addressKey a) (e.appendsOf engine ys)
      = (ys.filter fun y => decide (addressOf y.arrival = some a)).map (e.appendOf engine) := by
  unfold logOf appendsOf
  rw [List.filter_filter, List.filter_map]
  congr 1
  refine List.filter_congr fun y hy => ?_
  rw [Function.comp_apply, ← Bool.decide_and, decide_eq_decide, mem_keys (h y hy),
    and_iff_left_iff_imp]
  intro ha hnil
  have hk := (mem_keys (h y hy)).mpr ha
  unfold Append.keys at hk
  rw [hnil] at hk
  exact List.not_mem_nil hk

/-- the scope keys of a run fit in the store -/
def Fits (e : EnumerationSite Response τ) (engine : RuleEngine Response) (xs : List Arrival) :
    Prop :=
  ((xs.flatMap (e.scopeKeysOf engine)).map ScopeKey.asString).dedup.length ≤ e.store.maxKeys

/-- **the rows under the key of an address** after a run: those of the latest events filed under
it -/
theorem rows_of_run (hfits : Fits e engine (ys.map Filing.arrival))
    (h : ∀ y ∈ ys, Intact e engine y.arrival) (a : Str) :
    (((e.store.after (e.appendsOf engine ys)).get (addressKey a)).getD [])
      = (lastSlice e.store.maxEventsPerKey
          (ys.filter fun y => decide (addressOf y.arrival = some a))).map
            fun y => (e.appendOf engine y).entry := by
  have hmem : ∀ append ∈ e.appendsOf engine ys, ∃ y ∈ ys, e.appendOf engine y = append :=
    fun append happend => List.mem_map.mp (List.mem_filter.mp happend).1
  rw [(MemoryEventHistoryStore.rows_after hfits ?_ ?_).2, logOf_appendsOf h, List.map_map,
    MemoryEventHistoryStore.lastSlice_map]
  · rfl
  · intro append happend
    obtain ⟨y, -, rfl⟩ := hmem append happend
    exact keys_nodup
  · intro append happend k hk
    obtain ⟨y, hy, rfl⟩ := hmem append happend
    obtain ⟨key, hkey, rfl⟩ := List.mem_map.mp hk
    rw [List.mem_dedup]
    exact List.mem_map_of_mem (List.mem_flatMap.mpr ⟨y.arrival, List.mem_map_of_mem hy, hkey⟩)

/-! ## what the rule reads -/

/-- events at increasing times -/
def Timely (e : EnumerationSite Response τ) (xs : List Arrival) : Prop :=
  xs.Pairwise fun x y => e.seconds x.time ≤ e.seconds y.time

/-- the history after the appends of a run, as the rule is given it -/
def readerAfter (e : EnumerationSite Response τ) (engine : RuleEngine Response)
    (ys : List Filing) (x : Arrival) : ScopedHistoryReader :=
  e.reader (e.store.after (e.appendsOf engine ys)) ⟨x.time, e.scopeKeysOf engine x⟩

/-- the filings of the events to be consulted, under an address -/
def consultedOf (e : EnumerationSite Response τ) (engine : RuleEngine Response) (x : Arrival)
    (ys : List Filing) (address : Str) : List Filing :=
  queryRows (fun y => (e.appendOf engine y).entry) e.b e.num
    (lastSlice e.store.maxEventsPerKey
      (ys.filter fun y => decide (addressOf y.arrival = some address)))
    (some HTTP_RESPONSE_EVENTS) (e.seconds x.time - (min 300 e.self.windowSeconds : Int)) 100

theorem consultedOf_mem {address : Str} (hy : y ∈ e.consultedOf engine x ys address) : y ∈ ys :=
  List.mem_of_mem_filter ((lastSlice_suffix _ _).subset (List.mem_of_mem_filter
    (List.mem_reverse.mp (List.mem_of_mem_take hy))))

theorem map_consultedOf (h : ∀ y ∈ ys, Intact e engine y.arrival) {address : Str}
    (ha : addressOf x = some address) :
    (e.consultedOf engine x ys address).map Filing.arrival
      = e.consulted x (ys.map Filing.arrival) := by
  unfold consultedOf consulted queryRows
  rw [ha]
  dsimp only
  rw [List.filter_map, MemoryEventHistoryStore.lastSlice_map, List.filter_map, ← List.map_reverse,
    ← List.map_take]
  congr 3
  refine List.filter_congr fun y hy => ?_
  have hin : y ∈ ys := List.mem_of_mem_filter ((lastSlice_suffix _ _).subset hy)
  unfold admitted
  rw [entry_time, Function.comp_apply]
  exact congrArg (_ && ·) (decide_eq_decide.mpr (entry_type (h y hin)))

/-- **the rule reads the paths of the events to be consulted** -/
theorem events_consulted (hx : Intact e engine x) (hfits : Fits e engine (ys.map Filing.arrival))
    (htimes : e.Timely (ys.map Filing.arrival))
    (h : ∀ y ∈ ys, Intact e engine y.arrival ∧ e.Left y) :
    ∃ rows, (e.readerAfter engine ys x).events e.b e.num (str "ip") none none none none
        (some e.self.windowSeconds) = .ok rows ∧
      ∀ route, rows.filterMap (ResourceEnumerationRule.seenPath e.b route)
        = (e.consulted x (ys.map Filing.arrival)).filterMap (e.pathUnder route) := by
  have hscope : str "ip" ∈ ResourceEnumerationRule.context.scopes := List.mem_cons_self
  have hkeys : (e.readerAfter engine ys x).keysOf (str "ip") = _ := keysOf_address hx _ _
  have hintact : ∀ y ∈ ys, Intact e engine y.arrival := fun y hy => (h y hy).1
  rcases ha : addressOf x with _ | a
  · rw [ha] at hkeys
    refine ⟨[], ScopedHistoryReader.events_nil rfl hscope hkeys, fun route => ?_⟩
    unfold consulted
    rw [ha]
    rfl
  · rw [ha] at hkeys
    refine ⟨(e.consultedOf engine x ys a).map fun y => (e.appendOf engine y).entry, ?_, ?_⟩
    · have hrows := rows_of_run hfits hintact a
      rw [ScopedHistoryReader.events_one rfl hscope rfl hkeys, hrows, ← map_queryRows]
      · -- the bounds that the rule declares
        have hbound : (e.readerAfter engine ys x).boundedSince none (some e.self.windowSeconds)
            = e.seconds x.time - (min 300 e.self.windowSeconds : Int) := rfl
        have htypes : (e.readerAfter engine ys x).boundedEventTypes none none
            = some HTTP_RESPONSE_EVENTS := rfl
        have hlimit : ((e.readerAfter engine ys x).boundedLimit none).toNat = 100 := rfl
        rw [hbound, htypes, hlimit]
        rfl
      · rw [hrows, List.pairwise_map]
        refine List.Pairwise.imp ?_ (List.Pairwise.sublist ?_ (List.pairwise_map.mp htimes))
        · intro y z hyz
          unfold Newer
          simp only [id]
          rw [entry_time, entry_time]
          exact hyz
        · exact (lastSlice_suffix _ _).sublist.trans List.filter_sublist
    · intro route
      rw [← map_consultedOf hintact ha, List.filterMap_map, List.filterMap_map]
      refine List.filterMap_congr fun y hy => ?_
      obtain ⟨hy, hleft⟩ := h y (consultedOf_mem hy)
      exact seenPath_entry hy hleft route

/-- and counts them -/
theorem evaluate_eq (hx : Intact e engine x) (hfits : Fits e engine (ys.map Filing.arrival))
    (htimes : e.Timely (ys.map Filing.arrival))
    (h : ∀ y ∈ ys, Intact e engine y.arrival ∧ e.Left y) {route path : Str}
    (hr : ResourceEnumerationRule.routeAndPath e.b x.event = some (route, path))
    (ctx : RuleContext) :
    (∃ m, e.self.evaluate e.b e.num x.event ctx (some (e.readerAfter engine ys x))
        = .ok (.found m)) ↔
      e.self.threshold ≤ e.distinctPaths x route path (ys.map Filing.arrival) := by
  obtain ⟨rows, hrows, hseen⟩ := events_consulted hx hfits htimes h
  unfold ResourceEnumerationRule.evaluate distinctPaths
  rw [hr]
  dsimp only
  rw [hrows]
  simp only [bind, Except.bind]
  rw [hseen route]
  split
  · rename_i hlt
    refine iff_of_false ?_ (Int.not_le.mpr hlt)
    rintro ⟨m, hm⟩
    cases hm
  · rename_i hlt
    exact iff_of_true ⟨_, rfl⟩ (Int.not_lt.mp hlt)

/-! ## the rules of an evaluation -/

/-- what does not append leaves the history alone -/
theorem handler_history (β : Type) (c : Eff Response β) (s : EnumerationState τ)
    (h : NoAppend β c) : (e.site.handler β c s).2.history = s.history := by
  cases c with
  | append => exact h.elim
  | ruleEvaluate rule event ctx =>
    show (e.site.ruleEvaluate rule event ctx s).2.history = _
    unfold site
    dsimp only
    split <;> rfl
  | ruleAttributes rule event ctx =>
    show (e.site.ruleAttributes rule event ctx s).2.history = _
    unfold site
    dsimp only
    split <;> rfl
  | _ => rfl

/-- the context of an evaluation -/
def evaluationOf (e : EnumerationSite Response τ) (engine : RuleEngine Response) (x : Arrival) :
    EvaluationContext := ⟨x.event, x.time, summaryOf engine x, e.scopeKeysOf engine x⟩

/-- the context that the rules are given -/
def contextOf (e : EnumerationSite Response τ) (engine : RuleEngine Response) (x : Arrival) :
    RuleContext := (e.evaluationOf engine x).ruleContext

/-- the state of a loop over the rules -/
def During (history : MemoryHistory) (time : Int) (s : EnumerationState τ) : Prop :=
  s.history = history ∧ s.time = time

theorem site_own (event : RuleEvent) (c : RuleContext) (s : EnumerationState τ) :
    e.site.ruleEvaluate ResourceEnumerationRule.rule event c s
        = (e.self.evaluate e.b e.num event c (some (e.reader s.history c)), s) ∧
      e.site.ruleAttributes ResourceEnumerationRule.rule event c s
        = (.ok (ResourceEnumerationRule.historyAttributes e.b event), s) := by
  unfold site
  dsimp only
  exact ⟨if_pos rfl, if_pos rfl⟩

theorem site_other {rule : Rule} (h : rule ≠ ResourceEnumerationRule.rule) (event : RuleEvent)
    (c : RuleContext) (s : EnumerationState τ) :
    e.site.ruleEvaluate rule event c s = e.outside (fun site => site.ruleEvaluate rule event c) s ∧
      e.site.ruleAttributes rule event c s
        = e.outside (fun site => site.ruleAttributes rule event c) s :=
  ⟨if_neg h, if_neg h⟩

/-- the other rules leave the history to itself -/
theorem keeps_other {rule : Rule} (h : Mannered e engine frames rule)
    (hrule : rule ≠ ResourceEnumerationRule.rule) (event : RuleEvent) (c : RuleContext)
    (history : MemoryHistory) (time : Int) :
    KeepsTo e.site engine rule event c (During history time) := by
  constructor
  · intro s hs
    rw [(site_other hrule event c s).1]
    exact hs
  · intro s hs
    rw [(site_other hrule event c s).2]
    exact hs
  · intro s hs hother
    rw [(site_other hrule event c s).1] at hother
    exact h.proper _ _ _ _ _ hother

/-- the rule does not raise -/
theorem evaluate_ok (event : RuleEvent) (history : MemoryHistory) (ctx : RuleContext) :
    ∃ outcome, e.self.evaluate e.b e.num event ctx (some (e.reader history ctx)) = .ok outcome ∧
      outcome ≠ .other := by
  unfold ResourceEnumerationRule.evaluate
  rcases ResourceEnumerationRule.routeAndPath e.b event with _ | ⟨route, path⟩
  · exact ⟨_, rfl, Outcome.noConfusion⟩
  · obtain ⟨rows, hrows⟩ := @ScopedHistoryReader.events_ok (e.reader history ctx) e.b e.num
      (str "ip") none none none none (some e.self.windowSeconds) _ rfl List.mem_cons_self
    dsimp only
    rw [hrows]
    simp only [bind, Except.bind]
    split
    · exact ⟨_, rfl, Outcome.noConfusion⟩
    · exact ⟨_, rfl, Outcome.noConfusion⟩

/-- its matches carry its name -/
theorem evaluate_name {event : RuleEvent} {ctx : RuleContext}
    {history : Option ScopedHistoryReader} {m : RuleMatch}
    (h : e.self.evaluate e.b e.num event ctx history = .ok (.found m)) :
    m.ruleName = ResourceEnumerationRule.rule.name := by
  unfold ResourceEnumerationRule.evaluate at h
  split at h
  · obtain ⟨rows, -, h⟩ := ok_of_bind h
    dsimp only at h
    split at h
    · cases h
    · cases h
      rfl
  · cases h

/-- a reply: the rule's own, or one given while the history is as it was -/
structure Genuine (e : EnumerationSite Response τ) (engine : RuleEngine Response)
    (history : MemoryHistory) (x : Arrival) (r : RuleReply) : Prop where
  own : r.rule = ResourceEnumerationRule.rule →
    (∃ outcome, e.self.evaluate e.b e.num x.event (e.contextOf engine x)
        (some (e.reader history (e.contextOf engine x))) = .ok outcome ∧
      r.found = outcome.toOption) ∧
    r.contribution = ResourceEnumerationRule.historyAttributes e.b x.event
  other : r.rule ≠ ResourceEnumerationRule.rule →
    r.Given e.site x.event (e.contextOf engine x) (During history x.time)

/-- the replies of the rules that apply -/
structure Replied (e : EnumerationSite Response τ) (engine : RuleEngine Response)
    (history : MemoryHistory) (x : Arrival) (replies : List RuleReply) : Prop where
  rules : replies.map RuleReply.rule
    = engine.rules.filter fun rule => RuleEngine.ruleApplies rule x.event false
  genuine : ∀ r ∈ replies, e.Genuine engine history x r

/-- **the loop over the rules** of an engine that holds the rule -/
theorem runRules_replied (h : Holds e engine frames) (hs : s.time = x.time) :
    ∃ (replies : List RuleReply) (s' : EnumerationState τ),
      e.Replied engine s.history x replies ∧ During s.history x.time s' ∧
      exec e.site.handler
          (engine.runRules (e.evaluationOf engine x) false engine.rules [] []) s
        = (.ok (replies.filterMap RuleReply.found, replies.flatMap RuleReply.attrs), s') := by
  obtain ⟨outcome, houtcome, hproper⟩ := @evaluate_ok Response τ e x.event s.history
    (e.contextOf engine x)
  have hstep : ∀ rule ∈ engine.rules, RuleEngine.ruleApplies rule x.event false = true →
      ∀ (attrs : RuleAttrs) (t : EnumerationState τ), rule.name ∉ attrs.map Prod.fst →
      During s.history x.time t → ∃ (r : RuleReply) (t' : EnumerationState τ), r.rule = rule ∧
        e.Genuine engine s.history x r ∧ During s.history x.time t' ∧
        exec e.site.handler (engine.evaluateRule rule (e.evaluationOf engine x) false attrs) t
          = (.ok (r.found, attrs ++ r.attrs), t') := by
    intro rule hrule happlies attrs t hfresh ht
    by_cases he : rule = ResourceEnumerationRule.rule
    · subst he
      have hreturns : Returns e.site ResourceEnumerationRule.rule x.event (e.contextOf engine x) t
          outcome (ResourceEnumerationRule.historyAttributes e.b x.event) t t := by
        obtain ⟨hevaluate, hattributes⟩ := @site_own Response τ e x.event (e.contextOf engine x) t
        rw [ht.1, houtcome] at hevaluate
        exact ⟨hevaluate, hattributes, rfl, by decide, hproper⟩
      exact ⟨⟨ResourceEnumerationRule.rule, outcome.toOption,
        ResourceEnumerationRule.historyAttributes e.b x.event⟩, t, rfl,
        ⟨fun _ => ⟨⟨outcome, houtcome, rfl⟩, rfl⟩, fun hne => absurd rfl hne⟩, ht,
        exec_evaluateRule hfresh hreturns⟩
    · have hkeeps : KeepsTo e.site engine rule (e.evaluationOf engine x).ruleEvent
          (e.evaluationOf engine x).ruleContext (During s.history x.time) :=
        keeps_other (h.others rule hrule he) he _ _ _ _
      obtain ⟨r, t', rfl, hgiven, ht', hexec⟩ := exec_evaluateRule_any hkeeps hfresh ht
      exact ⟨r, t', rfl, ⟨fun hr => absurd hr he, fun _ => hgiven⟩, ht', hexec⟩
  obtain ⟨replies, s', hrules, hall, hs', hexec⟩ := @exec_runRules_each Response
    (EnumerationState τ) e.site engine (e.evaluationOf engine x) false (During s.history x.time)
    (e.Genuine engine s.history x) engine.rules hstep [] [] s h.names ⟨rfl, hs⟩
  exact ⟨replies, s', ⟨hrules, hall⟩, hs', hexec⟩

/-! ## what the rules leave -/

theorem applies_iff {event : RuleEvent} :
    RuleEngine.ruleApplies ResourceEnumerationRule.rule event false
      = decide (event.eventType ∈ HTTP_RESPONSE_EVENTS) := rfl

section
variable {history : MemoryHistory} {replies : List RuleReply} {r : RuleReply}

theorem Replied.mem (hr : e.Replied engine history x replies) (hmem : r ∈ replies) :
    r.rule ∈ engine.rules ∧ RuleEngine.ruleApplies r.rule x.event false = true := by
  have hrule := List.mem_map_of_mem (f := RuleReply.rule) hmem
  rw [hr.rules] at hrule
  exact List.mem_filter.mp hrule

/-- a response has a reply of the rule -/
theorem Replied.exists_own (h : Holds e engine frames) (hr : e.Replied engine history x replies)
    (hx : x.event.eventType ∈ HTTP_RESPONSE_EVENTS) :
    ∃ r ∈ replies, r.rule = ResourceEnumerationRule.rule := by
  have hmem : ResourceEnumerationRule.rule ∈ replies.map RuleReply.rule := by
    rw [hr.rules]
    exact List.mem_filter.mpr ⟨h.rule, applies_iff.trans (decide_eq_true hx)⟩
  exact List.mem_map.mp hmem

/-- the name of the rule is its own -/
theorem Replied.own_of_name (h : Holds e engine frames) (hr : e.Replied engine history x replies)
    (hmem : r ∈ replies) (hname : r.rule.name = ResourceEnumerationRule.rule.name) :
    r.rule = ResourceEnumerationRule.rule :=
  List.inj_on_of_nodup_map h.names (hr.mem hmem).1 h.rule hname

theorem Replied.names_nodup (h : Holds e engine frames)
    (hr : e.Replied engine history x replies) :
    ((replies.flatMap RuleReply.attrs).map Prod.fst).Nodup := by
  refine List.Nodup.sublist (names_of_replies replies) ?_
  rw [hr.rules]
  exact h.names.sublist (List.filter_sublist.map _)

theorem mem_attrs {p : Str × Except Exc (List (Key × Value))} (hp : p ∈ r.attrs) :
    p.1 = r.rule.name ∧ r.contribution = .mapping p.2 := by
  unfold RuleReply.attrs at hp
  cases hc : r.contribution with
  | mapping items =>
    rw [hc] at hp
    obtain rfl := List.mem_singleton.mp hp
    exact ⟨rfl, rfl⟩
  | none =>
    rw [hc] at hp
    exact absurd hp List.not_mem_nil
  | other =>
    rw [hc] at hp
    exact absurd hp List.not_mem_nil

/-- what the rule contributes, JSON-safe -/
theorem own_contribution (hframes : 0 < frames) {event : RuleEvent} {route path : Str}
    {b : Builtins} (h : ResourceEnumerationRule.routeAndPath b event = some (route, path)) :
    ResourceEnumerationRule.historyAttributes b event
        = .mapping (.ok [(.str (str "route"), .str route), (.str (str "path"), .str path)]) ∧
      jsonSafe frames (.mapping [(.str (str "route"), .str route), (.str (str "path"), .str path)])
        = .ok (.obj [(str "route", .string (limitString route 4096)),
            (str "path", .string (limitString path 4096))]) := by
  obtain ⟨n, rfl⟩ := Nat.exists_eq_succ_of_ne_zero hframes.ne'
  unfold ResourceEnumerationRule.historyAttributes
  rw [h]
  exact ⟨rfl, rfl⟩

theorem Replied.allSafe (h : Holds e engine frames) (hframes : 0 < frames)
    (hr : e.Replied engine history x replies) :
    AllSafe frames (replies.flatMap RuleReply.attrs) := by
  intro p hp
  obtain ⟨r, hmem, hp⟩ := List.mem_flatMap.mp hp
  obtain ⟨-, hcontribution⟩ := mem_attrs hp
  by_cases hown : r.rule = ResourceEnumerationRule.rule
  · have heq := hcontribution.symm.trans ((hr.genuine r hmem).own hown).2
    rcases hroute : ResourceEnumerationRule.routeAndPath e.b x.event with _ | ⟨route, path⟩
    · unfold ResourceEnumerationRule.historyAttributes at heq
      rw [hroute] at heq
      cases heq
    · obtain ⟨hattrs, hsafe⟩ := own_contribution hframes hroute
      rw [hattrs] at heq
      exact ⟨_, _, Contribution.mapping.inj heq, hsafe⟩
  · obtain ⟨s, -, hs⟩ := ((hr.genuine r hmem).other hown).contribution p.2 hcontribution
    rw [(site_other hown _ _ s).2] at hs
    exact (h.others r.rule (hr.mem hmem).1 hown).contributes _ _ _ _ _ _ hs

/-- **the rule has left the route and the path** in what is kept of the contributions -/
theorem Replied.left (h : Holds e engine frames) (hframes : 0 < frames)
    (hr : e.Replied engine history x replies) :
    e.Left ⟨x, keptOf frames (replies.flatMap RuleReply.attrs)⟩ := by
  unfold Left
  dsimp only
  rcases ha : e.access x with _ | ⟨route, path⟩
  · -- nothing stands under its name
    refine getItem_none_of fun hname => ?_
    obtain ⟨p, hp, hpname⟩ := List.mem_map.mp ((keptOf_names _ _).subset hname)
    obtain ⟨r, hmem, hp⟩ := List.mem_flatMap.mp hp
    obtain ⟨hrname, hcontribution⟩ := mem_attrs hp
    have hown := hr.own_of_name h hmem (hrname.symm.trans hpname)
    have happlies := (hr.mem hmem).2
    rw [hown, applies_iff, decide_eq_true_eq] at happlies
    unfold access at ha
    rw [if_pos happlies] at ha
    have heq := hcontribution.symm.trans ((hr.genuine r hmem).own hown).2
    unfold ResourceEnumerationRule.historyAttributes at heq
    rw [ha] at heq
    cases heq
  · obtain ⟨hx, hroute⟩ := access_eq ha
    obtain ⟨hattrs, hsafe⟩ := own_contribution hframes hroute
    obtain ⟨r, hmem, hown⟩ := hr.exists_own h hx
    refine getItem_keptOf (hr.names_nodup h) (List.mem_flatMap.mpr ⟨r, hmem, ?_⟩) hsafe
    unfold RuleReply.attrs
    rw [((hr.genuine r hmem).own hown).2, hown, hattrs]
    exact List.mem_singleton_self _

/-- **a match under its name is its own** -/
theorem Replied.found_iff (h : Holds e engine frames) (hr : e.Replied engine history x replies) :
    (∃ m ∈ replies.filterMap RuleReply.found, m.ruleName = ResourceEnumerationRule.rule.name) ↔
      x.event.eventType ∈ HTTP_RESPONSE_EVENTS ∧ ∃ m, e.self.evaluate e.b e.num x.event
        (e.contextOf engine x) (some (e.reader history (e.contextOf engine x)))
          = .ok (.found m) := by
  constructor
  · rintro ⟨m, hm, hname⟩
    obtain ⟨r, hmem, hfound⟩ := List.mem_filterMap.mp hm
    by_cases hown : r.rule = ResourceEnumerationRule.rule
    · have happlies := (hr.mem hmem).2
      rw [hown, applies_iff, decide_eq_true_eq] at happlies
      obtain ⟨outcome, houtcome, hf⟩ := ((hr.genuine r hmem).own hown).1
      rw [hfound] at hf
      cases outcome with
      | found m' => exact ⟨happlies, m', houtcome⟩
      | none => cases hf
      | other => cases hf
    · -- the others have names of their own
      obtain ⟨s, -, hs⟩ := ((hr.genuine r hmem).other hown).found m hfound
      rw [(site_other hown _ _ s).1] at hs
      have hmannered := h.others r.rule (hr.mem hmem).1 hown
      exact absurd (hr.own_of_name h hmem ((hmannered.found _ _ _ _ _ _ hs).symm.trans hname)) hown
  · rintro ⟨hx, m, hm⟩
    obtain ⟨r, hmem, hown⟩ := hr.exists_own h hx
    obtain ⟨outcome, houtcome, hf⟩ := ((hr.genuine r hmem).own hown).1
    obtain rfl := Except.ok.inj (houtcome.symm.trans hm)
    exact ⟨m, List.mem_filterMap.mpr ⟨r, hmem, hf⟩, evaluate_name hm⟩

end

/-! ## one evaluation -/

/-- the sinks leave the history alone; then the event is appended, if it has a key -/
theorem conclude_history (h : Holds e engine frames) (ctx : EvaluationContext)
    (found : List RuleMatch) (summary : Summary) (s : EnumerationState τ) :
    (exec e.site.handler (engine.conclude ctx false found summary) s).2.history
      = if ctx.scopeKeys = [] then s.history
        else e.store.append s.history (e.appended summary ctx.scopeKeys ctx.now) := by
  have hframe := @Only.frame _ _ _ _ _ _ _ MemoryHistory EnumerationState.history
    (only_persistMatches found h.sinks) (fun β c s hc => e.handler_history β c s hc) s
  have hp := @exec_persistMatches Response _ e.site found engine.resultSinks s
  unfold RuleEngine.conclude
  rcases hx : exec e.site.handler (RuleEngine.persistMatches found engine.resultSinks) s
    with ⟨r, s'⟩
  rw [hx] at hp hframe
  dsimp only at hp hframe
  subst hp
  rw [exec_bind_ok _ hx, if_neg Bool.false_ne_true, ← hframe]
  unfold RuleEngine.appendHistory
  rw [h.history]
  rcases ctx.scopeKeys with _ | ⟨k, keys⟩
  · rfl
  · rfl

/-- an event on a response -/
def IsResponse (x : Arrival) : Prop :=
  (str "http.response.").isPrefixOf x.event.eventType = true

theorem IsResponse.external (h : IsResponse x) : RuleEngine.isInternalEvent x.event = false := by
  obtain ⟨rest, hrest⟩ := List.isPrefixOf_iff_prefix.mp h
  unfold RuleEngine.isInternalEvent
  rw [← hrest]
  rfl

/-- **an event is evaluated, then appended** with what the rules left -/
theorem run_eq (h : Holds e engine frames) (hframes : 0 < frames) (hx : IsResponse x) :
    ∃ found kept, (e.run engine frames s x).1 = .ok found ∧
      ((∃ m ∈ found, m.ruleName = ResourceEnumerationRule.rule.name) ↔
        x.event.eventType ∈ HTTP_RESPONSE_EVENTS ∧ ∃ m, e.self.evaluate e.b e.num x.event
          (e.contextOf engine x) (some (e.reader s.history (e.contextOf engine x)))
            = .ok (.found m)) ∧
      e.Left ⟨x, kept⟩ ∧
      (e.run engine frames s x).2.history = if e.scopeKeysOf engine x = [] then s.history
        else e.store.append s.history (e.appendOf engine ⟨x, kept⟩) := by
  have hkeys : extractScopeKeys (summaryOf engine x) engine.historyExtractors []
      = .ok (e.scopeKeysOf engine x) := h.extractors ▸ scopeKeys_eq.1
  obtain ⟨replies, s', hr, hs', hexec⟩ := @runRules_replied Response τ e engine frames
    { s with time := x.time } x h rfl
  have hmerge : RuleEngine.mergeHistoryAttributes frames (replies.flatMap RuleReply.attrs)
      (e.evaluationOf engine x).summary = .ok (withAttributes (summaryOf engine x)
        (keptOf frames (replies.flatMap RuleReply.attrs))) :=
    mergeHistoryAttributes_ok (hr.allSafe h hframes) (hr.names_nodup h)
  have hrun : e.run engine frames s x = _ :=
    (exec_evaluate hx.external summary_eq hkeys).trans (exec_evaluateIn hexec hmerge)
  refine ⟨replies.filterMap RuleReply.found, keptOf frames (replies.flatMap RuleReply.attrs),
    ?_, hr.found_iff h, hr.left h hframes, ?_⟩
  · rw [hrun]
  · rw [hrun]
    refine (conclude_history h _ _ _ _).trans ?_
    rw [hs'.1]
    rfl

/-- a threshold that is out of reach of the hundred events that the rule may read -/
theorem run_over (h : Holds e engine frames) (hframes : 0 < frames) (hx : IsResponse x)
    (hover : 101 < e.self.threshold) : ∃ found, (e.run engine frames s x).1 = .ok found ∧
      ∀ m ∈ found, m.ruleName ≠ ResourceEnumerationRule.rule.name := by
  obtain ⟨found, kept, hfound, hiff, -, -⟩ := @run_eq Response τ e engine frames s x h hframes hx
  refine ⟨found, hfound, fun m hm hname => ?_⟩
  obtain ⟨-, m', hout⟩ := hiff.mp ⟨m, hm, hname⟩
  unfold ResourceEnumerationRule.evaluate at hout
  rcases hr : ResourceEnumerationRule.routeAndPath e.b x.event with _ | ⟨route, path⟩
  · rw [hr] at hout
    cases hout
  · rw [hr] at hout
    dsimp only at hout
    obtain ⟨rows, hrows, hout⟩ := ok_of_bind hout
    have hlen : rows.length ≤ 100 := ScopedHistoryReader.length_events hrows
    have hdistinct : (path :: rows.filterMap (ResourceEnumerationRule.seenPath e.b
        route)).dedup.length ≤ 101 := by
      refine (List.dedup_sublist _).length_le.trans ?_
      rw [List.length_cons]
      exact Nat.succ_le_succ ((List.length_filterMap_le _ _).trans hlen)
    rw [if_pos (by omega)] at hout
    cases hout

/-! ## runs -/

theorem after_concat : e.after engine frames s (xs ++ [x])
    = (e.run engine frames (e.after engine frames s xs) x).2 := by
  unfold after
  rw [List.foldl_concat]

theorem appendsOf_concat : e.appendsOf engine (ys ++ [y]) = e.appendsOf engine ys ++
    if e.scopeKeysOf engine y.arrival = [] then [] else [e.appendOf engine y] := by
  unfold appendsOf
  rw [List.map_append, List.filter_append]
  congr 1
  show List.filter _ [e.appendOf engine y] = _
  rw [List.filter_singleton]
  show (bif decide (e.scopeKeysOf engine y.arrival ≠ []) then _ else _) = _
  by_cases hk : e.scopeKeysOf engine y.arrival = []
  · rw [if_pos hk, decide_eq_false (not_not_intro hk)]
    rfl
  · rw [if_neg hk, decide_eq_true hk]
    rfl

/-- **the history after a run**: its events have been appended, with what the rule left of each -/
theorem history_after (h : Holds e engine frames) (hframes : 0 < frames)
    (hempty : s.history = .empty) : ∀ {xs : List Arrival}, (∀ x ∈ xs, IsResponse x) →
    ∃ ys : List Filing, ys.map Filing.arrival = xs ∧ (∀ y ∈ ys, e.Left y) ∧
      (e.after engine frames s xs).history = e.store.after (e.appendsOf engine ys) := by
  intro xs
  induction xs using List.reverseRecOn with
  | nil => exact fun _ => ⟨[], rfl, fun y hy => absurd hy List.not_mem_nil, hempty⟩
  | append_singleton xs x ih =>
    intro hxs
    obtain ⟨found, kept, -, -, hleft, hhistory⟩ := @run_eq Response τ e engine frames
      (e.after engine frames s xs) x h hframes (hxs x (List.mem_append_right _ List.mem_cons_self))
    obtain ⟨ys, rfl, hys, hbefore⟩ := ih fun y hy => hxs y (List.mem_append_left _ hy)
    refine ⟨ys ++ [⟨x, kept⟩], List.map_append, ?_, ?_⟩
    · intro y hy
      rcases List.mem_append.mp hy with hy | hy
      · exact hys y hy
      · rw [List.mem_singleton.mp hy]
        exact hleft
    · rw [after_concat, hhistory, appendsOf_concat, hbefore]
      split
      · rw [List.append_nil]
      · rw [MemoryEventHistoryStore.after_concat]

end

/-- a run of events on responses, at increasing times, whose scope keys fit in the store -/
structure ResponseRun {Response τ : Type} (e : EnumerationSite Response τ)
    (engine : RuleEngine Response) (xs : List Arrival) : Prop where
  times : e.Timely xs
  responses : ∀ x ∈ xs, IsResponse x
  fits : Fits e engine xs

theorem ResponseRun.init {Response τ : Type} {e : EnumerationSite Response τ}
    {engine : RuleEngine Response} {xs : List Arrival} {x : Arrival}
    (h : e.ResponseRun engine (xs ++ [x])) : e.ResponseRun engine xs where
  times := (List.pairwise_append.mp h.times).1
  responses y hy := h.responses y (List.mem_append_left _ hy)
  fits := by
    have hsub : ((xs.flatMap (e.scopeKeysOf engine)).map ScopeKey.asString).dedup ⊆
        (((xs ++ [x]).flatMap (e.scopeKeysOf engine)).map ScopeKey.asString).dedup := by
      intro k hk
      rw [List.mem_dedup] at hk ⊢
      rw [List.flatMap_append, List.map_append]
      exact List.mem_append_left _ hk
    exact ((List.nodup_dedup _).subperm hsub).length_le.trans h.fits

/-- **resources are enumerated** exactly when the route of a response has as many paths in the
events to be consulted and its own -/
theorem enumerates_iff {Response τ : Type} (e : EnumerationSite Response τ)
    (engine : RuleEngine Response) (frames : Nat) (hengine : Holds e engine frames)
    (hframes : 0 < frames) (s : EnumerationState τ) (hempty : s.history = .empty)
    (xs : List Arrival) (x : Arrival) (hrun : e.ResponseRun engine (xs ++ [x]))
    (hintact : ∀ y ∈ xs ++ [x], Intact e engine y) :
    ∃ found, (e.run engine frames (e.after engine frames s xs) x).1 = .ok found ∧
      ((∃ m ∈ found, m.ruleName = ResourceEnumerationRule.rule.name) ↔
        ∃ route path, e.access x = some (route, path) ∧
          e.self.threshold ≤ e.distinctPaths x route path xs) := by
  obtain ⟨ys, rfl, hleft, hhistory⟩ := @history_after Response τ e engine frames s hengine hframes
    hempty xs hrun.init.responses
  obtain ⟨found, -, hfound, hiff, -⟩ := @run_eq Response τ e engine frames
    (e.after engine frames s (ys.map Filing.arrival)) x hengine hframes
    (hrun.responses x (List.mem_append_right _ List.mem_cons_self))
  refine ⟨found, hfound, hiff.trans ?_⟩
  rw [hhistory]
  have hx : Intact e engine x := hintact x (List.mem_append_right _ List.mem_cons_self)
  have hys : ∀ y ∈ ys, Intact e engine y.arrival ∧ e.Left y := fun y hy =>
    ⟨hintact _ (List.mem_append_left _ (List.mem_map_of_mem hy)), hleft y hy⟩
  constructor
  · rintro ⟨happlies, hm⟩
    rcases hr : ResourceEnumerationRule.routeAndPath e.b x.event with _ | ⟨route, path⟩
    · obtain ⟨m, hm⟩ := hm
      unfold ResourceEnumerationRule.evaluate at hm
      rw [hr] at hm
      cases hm
    · exact ⟨route, path, (if_pos happlies).trans hr,
        (evaluate_eq hx hrun.init.fits hrun.init.times hys hr _).mp hm⟩
  · rintro ⟨route, path, ha, hle⟩
    obtain ⟨happlies, hr⟩ := access_eq ha
    exact ⟨happlies, (evaluate_eq hx hrun.init.fits hrun.init.times hys hr _).mpr hle⟩

/-! ## what the rule does not see -/

/-- the paths that the earlier events of the address and the route have had within the window -/
def pathsWithin {Response τ : Type} (e : EnumerationSite Response τ) (x : Arrival) (route : Str)
    (earlier : List Arrival) : List Str :=
  earlier.filterMap fun y =>
    if (y.event.source e.b).address = (x.event.source e.b).address ∧
        e.seconds x.time - e.self.windowSeconds < e.seconds y.time then
      ((ResourceEnumerationRule.routeAndPath e.b y.event).filter fun p =>
        decide (p.1 = route)).map Prod.snd
    else none

/-- the rule counts all of them -/
def Exact {Response τ : Type} (e : EnumerationSite Response τ) (engine : RuleEngine Response)
    (frames : Nat) : Prop :=
  ∀ (s : EnumerationState τ), s.history = .empty →
  ∀ (xs : List Arrival) (x : Arrival), e.ResponseRun engine (xs ++ [x]) →
  ∀ (route path : Str), ResourceEnumerationRule.routeAndPath e.b x.event = some (route, path) →
  (x.event.source e.b).address ≠ [] →
  ∃ found, (e.run engine frames (e.after engine frames s xs) x).1 = .ok found ∧
    ((∃ m ∈ found, m.ruleName = ResourceEnumerationRule.rule.name) ↔
      e.self.threshold ≤ (path :: e.pathsWithin x route xs).dedup.length)

/-- a run, as a test -/
def isRun {Response τ : Type} (e : EnumerationSite Response τ) (engine : RuleEngine Response)
    (xs : List Arrival) : Bool :=
  decide (xs.Pairwise fun x y => e.seconds x.time ≤ e.seconds y.time) &&
    xs.all (fun x => (str "http.response.").isPrefixOf x.event.eventType) &&
    decide (((xs.flatMap (e.scopeKeysOf engine)).map ScopeKey.asString).dedup.length
      ≤ e.store.maxKeys)

theorem ResponseRun.of_isRun {Response τ : Type} {e : EnumerationSite Response τ}
    {engine : RuleEngine Response} {xs : List Arrival} (h : e.isRun engine xs = true) :
    e.ResponseRun engine xs := by
  unfold isRun at h
  rw [Bool.and_eq_true, Bool.and_eq_true] at h
  have htimes : e.Timely xs := by
    unfold Timely
    exact of_decide_eq_true h.1.1
  have hfits : Fits e engine xs := by
    unfold Fits
    exact of_decide_eq_true h.2
  exact ⟨htimes, fun x hx => List.all_eq_true.mp h.1.2 x hx, hfits⟩

section
variable (e : EnumerationSite Unit Unit) (engine : RuleEngine Unit) (xs : List Arrival)
  (x : Arrival)

/-- the verdict of the rule on the last event of a run -/
def detects : Bool :=
  match (e.run engine 1 (e.after engine 1 ⟨.empty, 0, ()⟩ xs) x).1 with
  | .ok found => found.any fun m => decide (m.ruleName = ResourceEnumerationRule.rule.name)
  | .error _ => false

/-- the verdict by all the paths -/
def reaches : Bool :=
  match ResourceEnumerationRule.routeAndPath e.b x.event with
  | some (route, path) =>
    decide (e.self.threshold ≤ (path :: e.pathsWithin x route xs).dedup.length)
  | none => false

/-- they differ -/
structure Differs : Prop where
  run : e.ResponseRun engine (xs ++ [x])
  route : (ResourceEnumerationRule.routeAndPath e.b x.event).isSome = true
  address : (x.event.source e.b).address ≠ []
  verdict : e.detects engine xs x ≠ e.reaches xs x

variable {e engine xs x}

theorem detects_over (h : Holds e engine 1) (hx : IsResponse x) (hover : 101 < e.self.threshold) :
    e.detects engine xs x = false := by
  obtain ⟨found, hfound, hnone⟩ := @run_over Unit Unit e engine 1
    (e.after engine 1 ⟨.empty, 0, ()⟩ xs) x h Nat.one_pos hx hover
  unfold detects
  rw [hfound]
  exact List.any_eq_false.mpr fun m hm => by rw [decide_eq_false (hnone m hm)]; decide

theorem Differs.not_exact (h : e.Differs engine xs x) : ¬ Exact e engine 1 := by
  intro hexact
  obtain ⟨⟨route, path⟩, hroute⟩ := Option.isSome_iff_exists.mp h.route
  obtain ⟨found, hfound, hiff⟩ := hexact ⟨.empty, 0, ()⟩ rfl xs x h.run route path hroute h.address
  refine h.verdict ?_
  unfold detects reaches
  rw [hfound, hroute, Bool.eq_iff_iff]
  dsimp only
  rw [decide_eq_true_eq, ← hiff, List.any_eq_true]
  exact exists_congr fun m => and_congr_right fun _ => decide_eq_true_iff

end

/-! ## runs of an engine with another rule -/

/-- whole seconds -/
def sampleStamp (t : Int) : FloatLit :=
  if h : floatToken (decimalInt (t / 1000) ++ str ".0") = true then ⟨_, h⟩
  else ⟨str "0.0", by decide⟩

/-- a rule that takes a note of every event -/
def noteRule : Rule where
  name := str "note"

/-- its match -/
def note (rule : Rule) (now : Int) : RuleMatch where
  ruleName := rule.name
  severity := 1
  matchedAt := now
  message := str "noted"

/-- every rule but the one in question finds something and leaves a mark -/
def noting : Site Unit Unit :=
  { Site.quiet with
    ruleEvaluate := fun rule _ ctx s => (.ok (.found (note rule ctx.now)), s)
    ruleAttributes := fun _ _ _ s => (.ok (.mapping (.ok [(.str (str "noted"), .bool true)])), s) }

/-- a rule, and as many rows under a key -/
def sample (self : ResourceEnumerationRule) (rows : Nat) : EnumerationSite Unit Unit :=
  ⟨.sample, self, ⟨10, rows⟩, sampleStamp, wholeSeconds, fun _ _ => noting⟩

/-- an engine that takes notes and looks for enumerations -/
def sampleEngine : RuleEngine Unit where
  rules := [noteRule, ResourceEnumerationRule.rule]
  historyExtractors := (ScopeRegistry.default .sample).extractors

theorem noteRule_mannered (self : ResourceEnumerationRule) (rows : Nat) :
    Mannered (sample self rows) sampleEngine 1 noteRule := by
  constructor
  · rintro _ _ _ _ _ _ ⟨⟩
    rfl
  · rintro _ _ _ _ _ ⟨⟩
  · rintro _ _ _ _ _ _ ⟨⟩
    exact ⟨_, _, rfl, rfl⟩

theorem sampleEngine_holds (self : ResourceEnumerationRule) (rows : Nat) :
    Holds (sample self rows) sampleEngine 1 where
  rule := List.mem_cons_of_mem _ List.mem_cons_self
  names := by decide
  others rule hrule hne := by
    rcases List.mem_cons.mp hrule with rfl | hrule
    · exact noteRule_mannered self rows
    · exact absurd (List.mem_singleton.mp hrule) hne
  history := rfl
  extractors := rfl
  sinks _ h := absurd h List.not_mem_nil

/-- a user is looked at, from an address that a proxy gives as `srcip` -/
def lookAt (seconds : Int) (address srcip path : Str) : Arrival :=
  ⟨1000 * seconds, .make (str "http.response.success")
    [(str "source.address", .string address), (str "srcip", .string srcip),
      (str "route_pattern", .string (str "/users/<id>/")), (str "url.path", .string path)]⟩

theorem lookAt_response (seconds : Int) (address srcip path : Str) :
    IsResponse (lookAt seconds address srcip path) := rfl

/-- the addresses of the samples -/
def sampleAddress : Str := str "9.9.9.9"

def otherAddress : Str := str "10.0.0.1"

/-- two addresses look at users, one at a user twice -/
def someLooks : List Arrival :=
  [lookAt 0 sampleAddress sampleAddress (str "/users/0/"),
    lookAt 100 sampleAddress sampleAddress (str "/users/1/"),
    lookAt 110 otherAddress otherAddress (str "/users/9/"),
    lookAt 120 sampleAddress sampleAddress (str "/users/1/"),
    lookAt 130 sampleAddress sampleAddress (str "/users/2/")]

theorem lookAt_intact (self : ResourceEnumerationRule) (rows : Nat) (seconds : Int)
    {address srcip path : Str} (hsrcip : srcip.length ≤ 4096) (hpath : path.length ≤ 4096) :
    Intact (sample self rows) sampleEngine (lookAt seconds address srcip path) where
  short := .inr ⟨srcip, rfl, hsrcip⟩
  address := rfl
  type := rfl
  within route path' h := by
    have hurl : ((lookAt seconds address srcip path).event.url (sample self rows).b).path
        = path := by
      cases path <;> rfl
    unfold ResourceEnumerationRule.routeAndPath at h
    dsimp only at h
    rw [hurl] at h
    split at h
    · cases h
    · cases h
      exact ⟨(by decide : (str "/users/<id>/").length ≤ 4096), hpath⟩

/-- the rule sees a third user within the minute, past the mark that the other rule leaves -/
theorem enumerates_sample : ∃ found,
    ((sample { threshold := 3, windowSeconds := 60 } 3).run sampleEngine 1
      ((sample { threshold := 3, windowSeconds := 60 } 3).after sampleEngine 1 ⟨.empty, 0, ()⟩
        someLooks) (lookAt 140 sampleAddress sampleAddress (str "/users/3/"))).1 = .ok found ∧
    ∃ m ∈ found, m.ruleName = ResourceEnumerationRule.rule.name := by
  obtain ⟨found, hfound, hiff⟩ := enumerates_iff
    (sample { threshold := 3, windowSeconds := 60 } 3) sampleEngine 1 (sampleEngine_holds _ _)
    Nat.one_pos ⟨.empty, 0, ()⟩ rfl someLooks
    (lookAt 140 sampleAddress sampleAddress (str "/users/3/")) (.of_isRun (by decide +kernel)) (by
      unfold someLooks
      simp only [List.cons_append, List.nil_append, List.forall_mem_cons, List.not_mem_nil,
        false_implies, implies_true, and_true]
      refine ⟨?_, ?_, ?_, ?_, ?_, ?_⟩ <;> exact lookAt_intact _ _ _ (by decide) (by decide))
  exact ⟨found, hfound, hiff.mpr ⟨str "/users/<id>/", str "/users/3/", by decide +kernel,
    by decide +kernel⟩⟩

/-- a hundred and one users -/
def manyLooks : List Arrival :=
  (List.range 101).map fun i => lookAt 0 sampleAddress sampleAddress (decimalInt i)

set_option maxRecDepth 100000 in
theorem manyLooks_differ : Differs (sample { threshold := 102 } 200) sampleEngine manyLooks
    (lookAt 0 sampleAddress sampleAddress (str "/users/")) := by
  refine ⟨.of_isRun (by decide +kernel), by decide +kernel, by decide +kernel, ?_⟩
  rw [detects_over (sampleEngine_holds { threshold := 102 } 200) (lookAt_response _ _ _ _)
    (by decide : (101 : Int) < 102)]
  decide +kernel

/-- **a path is missed** that came before the window that the rule declares, that later rows or
later events took the place of, or that was asked for under another `srcip` -/
theorem paths_missed :
    (¬ ∀ (e : EnumerationSite Unit Unit) (engine : RuleEngine Unit) (frames : Nat), 0 < frames →
      Holds e engine frames → 1 ≤ e.self.threshold → 1 ≤ e.self.windowSeconds →
      Exact e engine frames) ∧
    Differs (sample { threshold := 2, windowSeconds := 600 } 100) sampleEngine
      [lookAt 0 sampleAddress sampleAddress (str "/users/1/")]
      (lookAt 400 sampleAddress sampleAddress (str "/users/2/")) ∧
    Differs (sample { threshold := 3 } 1) sampleEngine
      [lookAt 0 sampleAddress sampleAddress (str "/users/1/"),
        lookAt 1 sampleAddress sampleAddress (str "/users/2/")]
      (lookAt 2 sampleAddress sampleAddress (str "/users/3/")) ∧
    Differs (sample { threshold := 102 } 200) sampleEngine manyLooks
      (lookAt 0 sampleAddress sampleAddress (str "/users/")) ∧
    Differs (sample { threshold := 2 } 100) sampleEngine
      [lookAt 0 sampleAddress (str "10.0.0.1") (str "/users/1/")]
      (lookAt 1 sampleAddress (str "10.0.0.2") (str "/users/2/")) := by
  have hwindow : Differs (sample { threshold := 2, windowSeconds := 600 } 100) sampleEngine
      [lookAt 0 sampleAddress sampleAddress (str "/users/1/")]
      (lookAt 400 sampleAddress sampleAddress (str "/users/2/")) :=
    ⟨.of_isRun (by decide +kernel), by decide +kernel, by decide +kernel, by decide +kernel⟩
  refine ⟨fun h => hwindow.not_exact (h _ _ 1 Nat.one_pos (sampleEngine_holds _ _) (by decide)
    (by decide)), hwindow, ?_, manyLooks_differ, ?_⟩
  · exact ⟨.of_isRun (by decide +kernel), by decide +kernel, by decide +kernel, by decide +kernel⟩
  · exact ⟨.of_isRun (by decide +kernel), by decide +kernel, by decide +kernel, by decide +kernel⟩

end EnumerationSite

end SecAudit
