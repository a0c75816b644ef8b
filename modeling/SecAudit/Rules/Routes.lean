import SecAudit.Rules.BruteForce

/-!
# Repeated requests to a route

* `RepeatedRouteRule`  counts the requests of an address to a route;
* `stateKey_eq_iff` two keys are equal exactly when the parts are, with `_` for each `:`;
* `KeptApart`       tuples that this does not make equal;
* `counters_apart`  where it makes no other request's address and route equal to its own, a request
                    finds what it would find if only requests like itself had come before.
-/

set_option linter.unusedVariables false

namespace SecAudit
open Py

/-! ## keys -/

theorem colon_notMem_plainPart (part : Str) : cp ':' ∉ plainPart part := by
  intro h
  obtain ⟨c, _, hc⟩ := List.mem_map.mp h
  by_cases he : c = cp ':'
  · rw [if_pos he] at hc
    exact absurd hc (by decide)
  · rw [if_neg he] at hc
    exact he hc

theorem plainPart_eq_nil {part : Str} : plainPart part = [] ↔ part = [] := List.map_eq_nil_iff

theorem splitOn_stateKey {parts : List Str} (h : parts ≠ []) :
    (stateKey parts).splitOn (cp ':') = parts.map plainPart := by
  refine List.splitOn_intercalate (cp ':') (fun p hp => ?_) (by simpa using h)
  obtain ⟨part, _, rfl⟩ := List.mem_map.mp hp
  exact colon_notMem_plainPart part

theorem stateKey_ne_nil {parts : List Str} (h : parts ≠ []) (hne : [] ∉ parts) :
    stateKey parts ≠ [] := by
  intro hk
  have hs := splitOn_stateKey h
  rw [hk] at hs
  have hmem : plainPart [] ∈ parts.map plainPart := by
    rw [← hs]
    exact List.mem_cons_self
  obtain ⟨part, hpart, he⟩ := List.mem_map.mp hmem
  exact hne (plainPart_eq_nil.mp he ▸ hpart)

/-- **two keys are equal** exactly when the parts are once `_` stands for each `:` -/
theorem stateKey_eq_iff {ps qs : List Str} (hp : [] ∉ ps) (hq : [] ∉ qs) :
    stateKey ps = stateKey qs ↔ ps.map plainPart = qs.map plainPart := by
  refine ⟨fun h => ?_, fun h => congrArg (str ":").intercalate h⟩
  by_cases hps : ps = []
  · by_cases hqs : qs = []
    · rw [hps, hqs]
    · subst hps
      exact absurd h.symm (stateKey_ne_nil hqs hq)
  · by_cases hqs : qs = []
    · subst hqs
      exact absurd h (stateKey_ne_nil hps hp)
    · rw [← splitOn_stateKey hps, ← splitOn_stateKey hqs, h]

/-- `_` in the place of each `:` does not make the tuples equal -/
def KeptApart (ps qs : List Str) : Prop := ps.map plainPart = qs.map plainPart → ps = qs

instance (ps qs : List Str) : Decidable (KeptApart ps qs) := inferInstanceAs (Decidable (_ → _))

/-! ## the rule -/

structure RepeatedRouteRule where
  threshold : Int := 10
  windowSeconds : Int := 300
  /-- `pattern.search` of each of the paths -/
  paths : List (Str → Bool) := []
  severity : Int := 7
  message : Str := str "Repeated requests to a monitored route"
  tags : List Str := [str "http", str "route-abuse"]
  decision : Option Str := some (str "temp_block")
  blockTtl : Option Int := none

/-- a request, when the counters see it, and what the rule is given besides -/
structure RouteRequest where
  time : ℚ
  event : RuleEvent
  ctx : RuleContext

namespace RepeatedRouteRule

def rule : Rule where
  name := str "repeated_route"
  safeForEnforcement := true
  eventTypes := some [REQUEST_PRE]

section
variable (b : Builtins)

/-- `x or y` of two strings -/
def orText (x y : Str) : Str := if x = [] then y else x

/-- `_route_key` -/
def routeKey (event : RuleEvent) : Str :=
  strip (orText (orText (strOf b (orElse b (event.field (str "route_name")) (.string [])))
    (strOf b (orElse b (event.field (str "route_pattern")) (.string [])))) (event.url b).path)

/-- the address and the route that are counted -/
def subjectOf (event : RuleEvent) : List Str := [(event.source b).address, routeKey b event]

/-- the key of their counter -/
def counterKey (event : RuleEvent) : Str :=
  stateKey ([str "rules", rule.name] ++ subjectOf b event)

variable (self : RepeatedRouteRule)

/-- the path is one that is monitored -/
def monitors (event : RuleEvent) : Bool :=
  self.paths.isEmpty || self.paths.any fun search => search (event.url b).path

def evaluate (time : ℚ) (event : RuleEvent) (ctx : RuleContext) (counters : FixedWindows) :
    Outcome × FixedWindows :=
  if !self.monitors b event then (.none, counters)
  else if (event.source b).address = [] ∨ routeKey b event = [] then (.none, counters)
  else
    let r := FixedWindows.incr time (counterKey b event) 1 (some self.windowSeconds) counters
    if r.1 < self.threshold then (.none, r.2)
    else (.found (makeMatch b rule.name self.severity ctx.now self.message event self.tags
      ([(.str (str "request_count"), .int r.1), (.str (str "route"), .str (routeKey b event))]
        ++ self.blockTtl.toList.map fun ttl => (.str (str "block_ttl"), .int ttl))
      self.decision none), r.2)

/-- the counters after some requests -/
def after (counters : FixedWindows) (xs : List RouteRequest) : FixedWindows :=
  xs.foldl (fun counters x => (self.evaluate b x.time x.event x.ctx counters).2) counters

/-- the requests of the address and the route of `x` -/
def isLike (x y : RouteRequest) : Bool := decide (subjectOf b y.event = subjectOf b x.event)

/-- what the rule finds in a request that comes after others -/
def outcome (counters : FixedWindows) (xs : List RouteRequest) (x : RouteRequest) : Outcome :=
  (self.evaluate b x.time x.event x.ctx (self.after b counters xs)).1

end

/-! ## one request -/

section
variable {b : Builtins} {self : RepeatedRouteRule} {x y : RouteRequest} {m m' : FixedWindows}

theorem incr_frame {now : ℚ} {k k' : Str} {amount : Int} {ttl : Option Int} (h : k' ≠ k) :
    (FixedWindows.incr now k amount ttl m).2 k' = m k' := by
  unfold FixedWindows.incr
  split <;> exact Function.update_of_ne h _ _

theorem incr_congr {now : ℚ} {k : Str} {amount : Int} {ttl : Option Int} (h : m k = m' k) :
    (FixedWindows.incr now k amount ttl m).1 = (FixedWindows.incr now k amount ttl m').1 ∧
    (FixedWindows.incr now k amount ttl m).2 k = (FixedWindows.incr now k amount ttl m').2 k := by
  have hlive : Windows.live now m k = Windows.live now m' k := by
    unfold Windows.live
    rw [h]
  unfold FixedWindows.incr
  rw [hlive]
  split
  · refine ⟨rfl, ?_⟩
    dsimp only
    rw [Function.update_self, Function.update_self]
  · refine ⟨rfl, ?_⟩
    dsimp only
    rw [Function.update_self, Function.update_self]

/-- a request changes no counter but its own -/
theorem evaluate_frame {k : Str} (h : k ≠ counterKey b y.event) :
    (self.evaluate b y.time y.event y.ctx m).2 k = m k := by
  unfold evaluate
  split
  · rfl
  split
  · rfl
  · dsimp only
    split <;> exact incr_frame h

/-- and looks at no other -/
theorem evaluate_congr (h : m (counterKey b x.event) = m' (counterKey b x.event)) :
    (self.evaluate b x.time x.event x.ctx m).1 = (self.evaluate b x.time x.event x.ctx m').1 ∧
    (self.evaluate b x.time x.event x.ctx m).2 (counterKey b x.event)
      = (self.evaluate b x.time x.event x.ctx m').2 (counterKey b x.event) := by
  obtain ⟨hcount, hat⟩ := @incr_congr m m' x.time _ 1 (some self.windowSeconds) h
  unfold evaluate
  split
  · exact ⟨rfl, h⟩
  split
  · exact ⟨rfl, h⟩
  · dsimp only
    rw [hcount]
    split
    · exact ⟨rfl, hat⟩
    · exact ⟨rfl, hat⟩

/-- requests of one key have one subject, where subjects are kept apart -/
theorem subject_of_key (h : KeptApart (subjectOf b x.event) (subjectOf b y.event))
    (hk : counterKey b x.event = counterKey b y.event) :
    subjectOf b x.event = subjectOf b y.event := by
  have hs := congrArg (List.splitOn (cp ':')) hk
  unfold counterKey at hs
  rw [splitOn_stateKey (by simp), splitOn_stateKey (by simp), List.map_append,
    List.map_append] at hs
  exact h (List.append_cancel_left hs)

/-! ## a run -/

/-- **requests of other subjects change nothing** at the key of a request -/
theorem after_own : ∀ {xs : List RouteRequest} {m m' : FixedWindows},
    (∀ y ∈ xs, KeptApart (subjectOf b x.event) (subjectOf b y.event)) →
    m (counterKey b x.event) = m' (counterKey b x.event) →
    self.after b m xs (counterKey b x.event)
      = self.after b m' (xs.filter (isLike b x)) (counterKey b x.event)
  | [], _, _, _, h => h
  | y :: xs, m, m', hapart, h => by
    have hrest : ∀ y ∈ xs, KeptApart (subjectOf b x.event) (subjectOf b y.event) :=
      fun y hy => hapart y (List.mem_cons_of_mem _ hy)
    show self.after b _ xs _ = _
    by_cases hs : subjectOf b y.event = subjectOf b x.event
    · have hkey : counterKey b y.event = counterKey b x.event := by
        unfold counterKey
        rw [hs]
      rw [List.filter_cons_of_pos (show isLike b x y = true from decide_eq_true hs)]
      refine after_own hrest ?_
      rw [← hkey] at h ⊢
      exact (evaluate_congr h).2
    · have hkey : counterKey b x.event ≠ counterKey b y.event := fun hk =>
        hs (subject_of_key (hapart y List.mem_cons_self) hk).symm
      have hnot : ¬ isLike b x y = true := fun ht => hs (of_decide_eq_true ht)
      rw [List.filter_cons_of_neg hnot]
      exact after_own hrest ((evaluate_frame hkey).trans h)

end

end RepeatedRouteRule

/-- the `request_count` that is reported -/
def Outcome.requestCount : Outcome → Option Int
  | .found m => m.metadata.findSome? fun e => match e with
    | (.str k, .int n) => if k = str "request_count" then some n else Option.none
    | _ => Option.none
  | _ => Option.none

open RepeatedRouteRule in
/-- **Counters are told apart as far as `_` for `:` leaves their parts apart.** Two tuples of
non-empty parts have keys that differ, unless they are equal, if and only if they are kept apart; in
every run of requests that are kept apart from a request, the rule finds in it what it would find
if no request of another address or route had come before. -/
theorem counters_apart (b : Builtins) (self : RepeatedRouteRule) (m : FixedWindows)
    (xs : List RouteRequest) (x : RouteRequest) (ps qs : List Str) (hp : [] ∉ ps) (hq : [] ∉ qs) :
    ((stateKey ps = stateKey qs → ps = qs) ↔ KeptApart ps qs) ∧
    ((∀ y ∈ xs, KeptApart (subjectOf b x.event) (subjectOf b y.event)) →
      self.outcome b m xs x = self.outcome b m (xs.filter (isLike b x)) x) := by
  refine ⟨?_, fun hapart => ?_⟩
  · unfold KeptApart
    rw [stateKey_eq_iff hp hq]
  · exact (evaluate_congr (after_own hapart rfl)).1

/-! ## routes with a colon and with an underscore -/

namespace RepeatedRouteRule

/-- a request from `9.9.9.9` to a named route -/
def requestTo (time : ℚ) (route : Str) : RouteRequest :=
  ⟨time, .make REQUEST_PRE [(str "srcip", .string (str "9.9.9.9")),
    (str "route_name", .string route)], ⟨0, []⟩⟩

/-- two parts, and a request after two of another route -/
theorem counters_apart_two : (stateKey [str "a:b", str "c"] = stateKey [str "a", str "b:c"] →
      [str "a:b", str "c"] = [str "a", str "b:c"]) ∧
    RepeatedRouteRule.outcome .sample { threshold := 1 } (fun _ => none)
        [requestTo 0 (str "home"), requestTo 1 (str "home")] (requestTo 2 (str "admin:login"))
      = RepeatedRouteRule.outcome .sample { threshold := 1 } (fun _ => none) []
        (requestTo 2 (str "admin:login")) := by
  have h := counters_apart .sample { threshold := 1 } (fun _ => none)
    [requestTo 0 (str "home"), requestTo 1 (str "home")] (requestTo 2 (str "admin:login"))
    [str "a:b", str "c"] [str "a", str "b:c"] (by decide) (by decide)
  exact ⟨h.1.mpr (by decide), h.2 (by decide +kernel)⟩

/-- the keys of `a:b` and `a_b` are one, and a request to `admin:login` is counted with one to
`admin_login` -/
theorem counters_shared : (¬ ∀ ps qs, [] ∉ ps → [] ∉ qs → stateKey ps = stateKey qs → ps = qs) ∧
    ¬ ∀ (self : RepeatedRouteRule) (xs : List RouteRequest) (x : RouteRequest) (n n' : Int),
      (self.outcome .sample (fun _ => none) xs x).requestCount = some n →
      (self.outcome .sample (fun _ => none) (xs.filter (isLike .sample x)) x).requestCount
        = some n' → n ≤ n' := by
  refine ⟨fun h => ?_, fun h => ?_⟩
  · exact absurd (h [str "a:b"] [str "a_b"] (by decide) (by decide) (by decide)) (by decide)
  · exact absurd (h { threshold := 1 } [requestTo 0 (str "admin_login")]
      (requestTo 1 (str "admin:login")) 2 1 (by decide +kernel) (by decide +kernel)) (by decide)

end RepeatedRouteRule

end SecAudit
