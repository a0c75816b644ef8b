import SecAudit.Data.Tumbling
import SecAudit.Rules.RedisCounters
import SecAudit.Rules.Routes

/-!
# Repeated client errors, counted by several workers

* `RepeatedClientErrorRule`  counts the client errors of an address;
* `Delivery`        how a call on the server goes: what fails to get through counts as one;
* `ErrorStep`       a step of the workers that share a server, which may also drop keys;
* `shows_after`     the server shows the tally of the errors of an address, after every run;
* `errors_backed`   whatever fails, a report has as many errors behind it as the threshold says;
* `burst_reported`  a burst of errors is reported, whoever evaluates them.
-/

set_option linter.unusedVariables false
set_option linter.unusedSectionVars false

namespace SecAudit
open Py

/-! ## the rule -/

/-- `incr` of a store of counters -/
abbrev CounterIncr (σ : Type) := Str → Int → Option Int → σ → Int × σ

structure RepeatedClientErrorRule where
  threshold : Int := 20
  windowSeconds : Int := 300

namespace RepeatedClientErrorRule

def rule : Rule where
  name := str "repeated_client_error"
  eventTypes := some [str "http.response.client_error"]

/-- the key of the counter of an address -/
def errorsKey (srcip : Str) : Str :=
  stateKey [str "rules", str "repeated_client_error", str "errors", srcip]

section
variable (b : Builtins) (self : RepeatedClientErrorRule)

/-- the match of an event that is the `count`-th error -/
def found (event : RuleEvent) (ctx : RuleContext) (count : Int) : RuleMatch :=
  makeMatch b rule.name 6 ctx.now (str "Repeated HTTP client errors from source IP") event
    [str "http", str "scan"] [(.str (str "error_count"), .int count)] none none

def evaluate {σ : Type} (incr : CounterIncr σ) (event : RuleEvent) (ctx : RuleContext) (s : σ) :
    Outcome × σ :=
  let srcip := (event.source b).address
  if srcip = [] then (.none, s)
  else
    let r := incr (errorsKey srcip) 1 (some self.windowSeconds) s
    if r.1 < self.threshold then (.none, r.2) else (.found (found b event ctx r.1), r.2)

end

end RepeatedClientErrorRule

/-! ## workers around one server -/

/-- how a call on the server goes -/
inductive Delivery where
  | answered
  /-- it does not get there -/
  | requestLost
  /-- it is carried out, and its answer does not get back -/
  | replyLost
deriving DecidableEq

/-- `incr` of the store; a call that fails is taken for the first of its window -/
def RedisCounterStore.incrOver (store : RedisCounterStore) (now : Int) (delivery : Delivery) :
    CounterIncr RedisKeys := fun k amount ttl db =>
  match delivery with
  | .answered => store.incr now k amount ttl db
  | .requestLost => (amount, db)
  | .replyLost => (amount, (store.incr now k amount ttl db).2)

/-- an event that a worker hands to its engine, at the time of the server -/
structure Handed where
  worker : Nat
  now : Int
  event : RuleEvent
  enforcementOnly : Bool
  ctx : RuleContext
  delivery : Delivery

inductive ErrorStep where
  | evaluates (x : Handed)
  /-- a counter is used for something else -/
  | serves (e : Served)
  /-- the server drops a key -/
  | evicts (now : Int) (key : Str)

def ErrorStep.now : ErrorStep → Int
  | .evaluates x => x.now
  | .serves e => e.now
  | .evicts now _ => now

/-- the rule, at workers that share a server -/
structure ErrorSite where
  b : Builtins
  reader : IntReader
  store : RedisCounterStore
  self : RepeatedClientErrorRule

namespace ErrorSite
open RepeatedClientErrorRule
variable (site : ErrorSite)

/-- what the rule finds in an event, when the engine asks it -/
def evaluates (x : Handed) (db : RedisKeys) : Outcome × RedisKeys :=
  if RuleEngine.ruleApplies rule x.event x.enforcementOnly then
    site.self.evaluate site.b (site.store.incrOver x.now x.delivery) x.event x.ctx db
  else (.none, db)

def step (db : RedisKeys) : ErrorStep → RedisKeys
  | .evaluates x => (site.evaluates x db).2
  | .serves e => (site.store.call site.reader e.now db e.call).2
  | .evicts _ key => Function.update db key none

/-- the keys after a run -/
def after (db : RedisKeys) (xs : List ErrorStep) : RedisKeys := xs.foldl site.step db

/-- the address of an event -/
def addressOf (x : Handed) : Str := (x.event.source site.b).address

/-- `x` is a client error from `a`; the key of its counter has `_` in the place of each `:` -/
def IsError (a : Str) (x : Handed) : Prop :=
  RuleEngine.ruleApplies rule x.event x.enforcementOnly = true ∧ site.addressOf x ≠ [] ∧
    plainPart (site.addressOf x) = plainPart a

instance (a : Str) (x : Handed) : Decidable (site.IsError a x) :=
  inferInstanceAs (Decidable (_ ∧ _ ∧ _))

/-- the client error from `a` that a step evaluates -/
def errorOf (a : Str) : ErrorStep → Option Handed
  | .evaluates x => if site.IsError a x then some x else none
  | .serves _ => none
  | .evicts _ _ => none

/-- the client errors from `a`, in the order in which they are evaluated -/
def errorsOf (a : Str) (xs : List ErrorStep) : List Handed := xs.filterMap (site.errorOf a)

/-- what a step does to the counter of `a` -/
def beatOf (a : Str) : ErrorStep → Option (Beat Int)
  | .evaluates x =>
    if site.IsError a x ∧ x.delivery ≠ .requestLost then some (.hit x.now) else none
  | .serves _ => none
  | .evicts _ key => if key = site.store.key (errorsKey a) then some .forget else none

/-- what a run does to the counter of `a` -/
def beatsOf (a : Str) (xs : List ErrorStep) : List (Beat Int) := xs.filterMap (site.beatOf a)

/-- how long a window lasts -/
def span : Int := seconds site.self.windowSeconds

/-- the tally of the errors of `a` after a run -/
def tallyOf (a : Str) (xs : List ErrorStep) : Option (HitWindow Int) :=
  HitWindow.after site.span none (site.beatsOf a xs)

/-- a run at times of the server that do not go back; other counters have other keys, and the server
takes the window of the rule for an expiry -/
structure Run (xs : List ErrorStep) : Prop where
  times : (xs.map ErrorStep.now).Pairwise (· ≤ ·)
  window : 0 < site.self.windowSeconds ∧ site.self.windowSeconds < 2 ^ 53
  accepted : ∀ x ∈ xs, AcceptsTtl x.now site.self.windowSeconds
  apart : ∀ e, .serves e ∈ xs → ∀ a, e.call.key ≠ errorsKey a
  few : xs.length < 2 ^ 53

end ErrorSite

/-! ## one call -/

namespace ErrorSite
open RepeatedClientErrorRule
variable {site : ErrorSite} {now now' : Int} {db : RedisKeys} {k a : Str}
  {w : Option (HitWindow Int)}

/-- what the server keeps of a window -/
def stored (site : ErrorSite) (v : HitWindow Int) : Window Str Int :=
  ⟨decimalInt v.hits, some (v.since + site.span)⟩

/-- the server shows the window of a counter while it covers the time -/
def Shows (site : ErrorSite) (now : Int) (db : RedisKeys) (k : Str) (w : Option (HitWindow Int)) :
    Prop :=
  Windows.live now db (site.store.key k)
    = (w.filter fun v => decide (v.Covers site.span now)).map site.stored

theorem live_stored (v : HitWindow Int) : (site.stored v).LiveAt now ↔ v.Covers site.span now :=
  ⟨fun h => h _ rfl, fun h e he => Option.mem_some_iff.mp he ▸ h⟩

theorem Shows.later (h : site.Shows now db k w) (hle : now ≤ now') : site.Shows now' db k w := by
  unfold Shows at h ⊢
  rw [Windows.live_later hle, h, Option.filter_map]
  congr 1
  rw [Option.filter_filter]
  congr 1
  funext v
  rw [Function.comp_apply, Bool.eq_iff_iff, Bool.and_eq_true, decide_eq_true_eq, decide_eq_true_eq,
    decide_eq_true_eq, live_stored]
  exact ⟨And.right, fun hv => ⟨hle.trans_lt hv, hv⟩⟩

/-- a key that is written shows what is written -/
theorem shows_update (v : HitWindow Int) : site.Shows now
    (Function.update db (site.store.key k) (some (site.stored v))) k (some v) := by
  unfold Shows Windows.live
  rw [Function.update_self, Option.filter_some, Option.filter_some]
  by_cases hv : v.Covers site.span now
  · rw [if_pos (decide_eq_true ((live_stored v).mpr hv)), if_pos (decide_eq_true hv)]
    rfl
  · rw [if_neg fun h => hv ((live_stored v).mp (of_decide_eq_true h)),
      if_neg fun h => hv (of_decide_eq_true h)]
    rfl

/-- what is shown under a key is what the key holds -/
theorem shows_congr {db' : RedisKeys} (h : db' (site.store.key k) = db (site.store.key k)) :
    site.Shows now db' k w ↔ site.Shows now db k w := by
  unfold Shows Windows.live
  rw [h]

/-- **a call of `incr`** counts in the tally -/
theorem incr_shows (h : site.Shows now db k w)
    (hw : 0 < site.self.windowSeconds ∧ site.self.windowSeconds < 2 ^ 53)
    (haccept : AcceptsTtl now site.self.windowSeconds)
    (hpos : ∀ v ∈ w, 0 < v.hits) (hfew : ∀ v ∈ w, v.hits + 1 < 2 ^ 53) :
    site.store.incr now k 1 (some site.self.windowSeconds) db
      = (((HitWindow.hit site.span now w).hits : Int), Function.update db (site.store.key k)
          (some (site.stored (HitWindow.hit site.span now w)))) := by
  have hsmall : ∀ {n : Int}, n.natAbs < 2 ^ 53 → InInt64 n ∧ luaNumber n = n := by
    intro n hn
    refine ⟨?_, RedisCounterStore.luaNumber_small hn⟩
    unfold InInt64 int64Min int64Max
    omega
  unfold Shows at h
  rcases hit_cases site.span now w with ⟨v, rfl, hv, he⟩ | ⟨hlate, he⟩
  · -- the key is there, and its number is not `0`
    rw [Option.filter_some, if_pos (decide_eq_true hv), Option.map_some] at h
    have hn := hpos v rfl
    have hn' := hfew v rfl
    have hread : redisInt (site.stored v).value = some (v.hits : Int) :=
      redisInt_decimalInt (@hsmall v.hits (by omega)).1
    have hc : site.store.StartsOnce now db (.incr k 1 (some site.self.windowSeconds)) := by
      show RedisCounterStore.BeginsOnce ..
      rw [h]
      exact (RedisCounterStore.beginsOnce_small hread hw.1 (by decide) (by omega)).mpr (by omega)
    rw [(RedisCounterStore.incr_adds h hread hc).1, he]
    unfold stored
    rw [Nat.cast_succ]
  · have hnone : Windows.live now db (site.store.key k) = none := by
      rw [h, Option.map_eq_none_iff, Option.filter_eq_none_iff]
      exact fun v hv hc => hlate v hv (of_decide_eq_true hc)
    have hc : site.store.StartsOnce now db (.incr k 1 (some site.self.windowSeconds)) := by
      show RedisCounterStore.BeginsOnce ..
      rw [hnone]
      have hexact : luaNumber site.self.windowSeconds = site.self.windowSeconds :=
        RedisCounterStore.luaNumber_small (by omega)
      exact ⟨by decide, by decide, fun _ => ⟨hexact, haccept⟩⟩
    rw [RedisCounterStore.incr_starts hnone hc, he, startEnd_pos hw.1]
    rfl

/-! ## one step -/

theorem errorsKey_eq_iff {p q : Str} : errorsKey p = errorsKey q ↔ plainPart p = plainPart q := by
  have hkey : ∀ r, errorsKey r
      = str "rules:repeated_client_error:errors:" ++ (plainPart r ++ []) := fun r => rfl
  rw [hkey, hkey, List.append_nil, List.append_nil, List.append_right_inj]

theorem expireAt_frame {κ ν : Type} [DecidableEq κ] {m : Windows κ ν Int} {k k' : κ} {ttl : Int}
    (h : k' ≠ k) : expireAt now k ttl m k' = m k' := by
  unfold expireAt
  rcases Windows.live now m k with _ | w
  · rfl
  · exact Function.update_of_ne h _ _

theorem expireKey_frame {key key' : Str} {ttl : Int} {db' : RedisKeys} (h : key' ≠ key)
    (he : expireKey now key ttl db = .ok db') : db' key' = db key' := by
  unfold expireKey at he
  split at he
  · obtain rfl := Except.ok.inj he
    exact expireAt_frame h
  · cases he

theorem incrBy_frame {key key' : Str} {amount : Int} {r : Int × RedisKeys} (h : key' ≠ key)
    (he : incrBy now key amount db = .ok r) : r.2 key' = db key' := by
  unfold incrBy at he
  split at he
  · split at he
    · obtain rfl := Except.ok.inj he
      exact Function.update_of_ne h _ _
    · split at he
      · cases he
      · split at he
        · obtain rfl := Except.ok.inj he
          exact Function.update_of_ne h _ _
        · cases he
  · cases he

theorem incrScript_frame {key key' : Str} {amount ttl : Int} (h : key' ≠ key) :
    (incrScript now key amount ttl db).2 key' = db key' := by
  unfold incrScript
  split
  · rfl
  · rename_i v db' hincr
    have hv := incrBy_frame h hincr
    split
    · split
      · exact hv
      · rename_i db'' hexpire
        exact (expireKey_frame h hexpire).trans hv
    · exact hv

theorem incr_frame {store : RedisCounterStore} {key' : Str} {amount : Int}
    {ttl : Option Int} (h : key' ≠ store.key k) :
    (store.incr now k amount ttl db).2 key' = db key' := by
  have hscript := @incrScript_frame now db (store.key k) key' amount (ttl.getD 0) h
  unfold RedisCounterStore.incr
  split
  · rename_i he
    rw [he] at hscript
    exact hscript
  · rename_i he
    rw [he] at hscript
    exact hscript

/-- a call changes no key but its own -/
theorem call_frame {store : RedisCounterStore} {reader : IntReader} {c : CounterCall}
    (h : c.key ≠ k) : (store.call reader now db c).2 (store.key k) = db (store.key k) := by
  have hk : store.key k ≠ store.key c.key :=
    fun he => h (RedisCounterStore.key_injective store he).symm
  cases c with
  | incr key amount ttl => exact incr_frame hk
  | getInt key default => rfl
  | set key value ttl =>
    show (store.set now key value ttl db).2 (store.key k) = _
    unfold RedisCounterStore.set
    split
    · rfl
    · split
      · exact Function.update_of_ne hk _ _
      · rfl
  | delete key => exact Function.update_of_ne hk _ _
  | expire key ttl =>
    show store.expire now key ttl db (store.key k) = _
    unfold RedisCounterStore.expire
    rcases he : expireKey now (store.key key) ttl db with e | db'
    · rfl
    · exact expireKey_frame hk he

/-- a client error is counted under the key of its address -/
theorem evaluates_error {x : Handed} (h : site.IsError a x) :
    site.evaluates x db = site.self.evaluate site.b
      (fun _ => site.store.incrOver x.now x.delivery (errorsKey a)) x.event x.ctx db := by
  have hkey : errorsKey (site.addressOf x) = errorsKey a := errorsKey_eq_iff.mpr h.2.2
  unfold evaluates RepeatedClientErrorRule.evaluate
  rw [if_pos h.1]
  unfold addressOf at hkey
  dsimp only
  rw [hkey]

/-- what is no client error from `a` leaves the counter of `a` alone -/
theorem evaluates_other {x : Handed} (h : ¬ site.IsError a x) :
    (site.evaluates x db).2 (site.store.key (errorsKey a))
      = db (site.store.key (errorsKey a)) := by
  unfold evaluates
  by_cases happlies : RuleEngine.ruleApplies rule x.event x.enforcementOnly = true
  · rw [if_pos happlies]
    unfold RepeatedClientErrorRule.evaluate
    dsimp only
    by_cases haddress : (x.event.source site.b).address = []
    · rw [if_pos haddress]
    · rw [if_neg haddress]
      have hkey : site.store.key (errorsKey a)
          ≠ site.store.key (errorsKey (x.event.source site.b).address) := fun he =>
        h ⟨happlies, haddress,
          (errorsKey_eq_iff.mp (RedisCounterStore.key_injective site.store he)).symm⟩
      have hincr : (site.store.incrOver x.now x.delivery (errorsKey
          (x.event.source site.b).address) 1 (some site.self.windowSeconds) db).2
            (site.store.key (errorsKey a)) = db (site.store.key (errorsKey a)) := by
        unfold RedisCounterStore.incrOver
        cases x.delivery with
        | answered => exact incr_frame hkey
        | requestLost => rfl
        | replyLost => exact incr_frame hkey
      split
      · exact hincr
      · exact hincr
  · rw [if_neg happlies]

/-- the tally after a step -/
theorem shows_step {x : ErrorStep} (h : site.Shows x.now db (errorsKey a) w)
    (hw : 0 < site.self.windowSeconds ∧ site.self.windowSeconds < 2 ^ 53)
    (haccept : AcceptsTtl x.now site.self.windowSeconds)
    (hapart : ∀ e, x = .serves e → e.call.key ≠ errorsKey a)
    (hpos : ∀ v ∈ w, 0 < v.hits) (hfew : ∀ v ∈ w, v.hits + 1 < 2 ^ 53) :
    site.Shows x.now (site.step db x) (errorsKey a)
      (HitWindow.after site.span w (site.beatOf a x).toList) := by
  cases x with
  | serves e => exact (shows_congr (call_frame (hapart e rfl))).mpr h
  | evicts now key =>
    unfold beatOf
    dsimp only
    by_cases hk : key = site.store.key (errorsKey a)
    · rw [if_pos hk]
      show Windows.live now (Function.update db key none) _ = none
      unfold Windows.live
      rw [hk, Function.update_self]
      rfl
    · rw [if_neg hk]
      exact (shows_congr (Function.update_of_ne (Ne.symm hk) _ _)).mpr h
  | evaluates x =>
    change site.Shows x.now db _ _ at h
    change AcceptsTtl x.now _ at haccept
    show site.Shows x.now (site.evaluates x db).2 _ _
    unfold beatOf
    dsimp only
    by_cases herror : site.IsError a x
    · have haddress : (x.event.source site.b).address ≠ [] := herror.2.1
      have hincr := incr_shows h hw haccept hpos hfew
      have hafter : (site.evaluates x db).2 = (site.store.incrOver x.now x.delivery (errorsKey a) 1
          (some site.self.windowSeconds) db).2 := by
        rw [evaluates_error herror]
        unfold RepeatedClientErrorRule.evaluate
        dsimp only
        rw [if_neg haddress]
        split <;> rfl
      rw [hafter]
      unfold RedisCounterStore.incrOver
      cases x.delivery with
      | requestLost =>
        rw [if_neg fun hb => hb.2 rfl]
        exact h
      | answered =>
        rw [if_pos ⟨herror, Delivery.noConfusion⟩]
        dsimp only
        rw [hincr]
        exact shows_update _
      | replyLost =>
        rw [if_pos ⟨herror, Delivery.noConfusion⟩]
        dsimp only
        rw [hincr]
        exact shows_update _
    · rw [if_neg fun hb => herror hb.1]
      exact (shows_congr (evaluates_other herror)).mpr h

/-! ## runs -/

variable {xs ys : List ErrorStep}

theorem after_snoc (xs : List ErrorStep) (x : ErrorStep) :
    site.after db (xs ++ [x]) = site.step (site.after db xs) x := List.foldl_concat ..

theorem beatsOf_append (a : Str) (xs ys : List ErrorStep) :
    site.beatsOf a (xs ++ ys) = site.beatsOf a xs ++ site.beatsOf a ys := List.filterMap_append

theorem beatsOf_cons (a : Str) (x : ErrorStep) (xs : List ErrorStep) :
    site.beatsOf a (x :: xs) = (site.beatOf a x).toList ++ site.beatsOf a xs := by
  unfold beatsOf
  rw [List.filterMap_cons]
  cases site.beatOf a x <;> rfl

theorem errorsOf_append (a : Str) (xs ys : List ErrorStep) :
    site.errorsOf a (xs ++ ys) = site.errorsOf a xs ++ site.errorsOf a ys := List.filterMap_append

theorem errorOf_eq_some {x : ErrorStep} {y : Handed} :
    site.errorOf a x = some y ↔ x = .evaluates y ∧ site.IsError a y := by
  cases x with
  | serves e => exact iff_of_false (Option.some_ne_none y).symm fun h => by cases h.1
  | evicts now key => exact iff_of_false (Option.some_ne_none y).symm fun h => by cases h.1
  | evaluates x =>
    unfold errorOf
    dsimp only
    constructor
    · intro h
      split at h
      · rename_i hx
        obtain rfl := Option.some.inj h
        exact ⟨rfl, hx⟩
      · cases h
    · rintro ⟨h, hy⟩
      obtain rfl := ErrorStep.evaluates.inj h
      exact if_pos hy

theorem beatOf_hit {x : ErrorStep} {t : Int} (h : site.beatOf a x = some (.hit t)) :
    ∃ y, site.errorOf a x = some y ∧ t = y.now := by
  cases x with
  | serves e => cases h
  | evicts now key =>
    unfold beatOf at h
    dsimp only at h
    split at h <;> cases h
  | evaluates x =>
    unfold beatOf at h
    dsimp only at h
    split at h
    · rename_i hb
      cases h
      exact ⟨x, errorOf_eq_some.mpr ⟨rfl, hb.1⟩, rfl⟩
    · cases h

/-- the errors are at the times of steps -/
theorem errors_times (a : Str) : ∀ xs : List ErrorStep,
    List.Sublist ((site.errorsOf a xs).map Handed.now) (xs.map ErrorStep.now)
  | [] => List.Sublist.slnil
  | x :: xs => by
    unfold errorsOf
    rw [List.filterMap_cons, List.map_cons]
    rcases he : site.errorOf a x with _ | y
    · exact (errors_times a xs).cons _
    · obtain ⟨rfl, -⟩ := errorOf_eq_some.mp he
      exact (errors_times a xs).cons_cons _

/-- the hits are errors -/
theorem hits_sublist (a : Str) : ∀ xs : List ErrorStep,
    List.Sublist (hitsOf (site.beatsOf a xs)) ((site.errorsOf a xs).map Handed.now)
  | [] => List.Sublist.slnil
  | x :: xs => by
    rw [beatsOf_cons, hitsOf_append, show x :: xs = [x] ++ xs from rfl, errorsOf_append,
      List.map_append]
    refine List.Sublist.append ?_ (hits_sublist a xs)
    rcases hb : site.beatOf a x with _ | beat
    · exact List.nil_sublist _
    · cases beat with
      | forget => exact List.nil_sublist _
      | hit t =>
        obtain ⟨y, hy, rfl⟩ := beatOf_hit hb
        unfold errorsOf
        rw [List.filterMap_cons, hy]
        exact List.Sublist.refl _

theorem Run.left (h : site.Run (xs ++ ys)) : site.Run xs where
  times := by
    have ht := h.times
    rw [List.map_append] at ht
    exact (List.pairwise_append.mp ht).1
  window := h.window
  accepted x hx := h.accepted x (List.mem_append_left _ hx)
  apart e he := h.apart e (List.mem_append_left _ he)
  few := by
    have hf := h.few
    rw [List.length_append] at hf
    omega

/-- what comes last comes no earlier than the rest -/
theorem Run.le_last {x : ErrorStep} (h : site.Run (xs ++ [x])) : ∀ y ∈ xs, y.now ≤ x.now := by
  have ht := h.times
  rw [List.map_append] at ht
  intro y hy
  exact (List.pairwise_append.mp ht).2.2 _ (List.mem_map_of_mem hy) _ List.mem_cons_self

theorem tallyOf_append (a : Str) (xs ys : List ErrorStep) : site.tallyOf a (xs ++ ys)
    = HitWindow.after site.span (site.tallyOf a xs) (site.beatsOf a ys) := by
  unfold tallyOf
  rw [beatsOf_append, HitWindow.after_append]

/-- the tally counts hits of the run -/
theorem tally_backed (h : site.Run xs) (a : Str) :
    ∀ v ∈ site.tallyOf a xs, Backed (hitsOf (site.beatsOf a xs)) v :=
  backed_after (h.times.sublist ((hits_sublist a xs).trans (errors_times a xs)))

theorem tally_few (h : site.Run xs) (a : Str) : ∀ v ∈ site.tallyOf a xs, v.hits ≤ xs.length := by
  intro v hv
  refine (tally_backed h a v hv).counted.trans (List.countP_le_length.trans ?_)
  exact ((hits_sublist a xs).trans (errors_times a xs)).length_le.trans_eq (List.length_map ..)

/-- the tally has room for one more hit -/
theorem Run.room {x : ErrorStep} (h : site.Run (xs ++ [x])) (a : Str) :
    ∀ v ∈ site.tallyOf a xs, v.hits + 1 < 2 ^ 53 := by
  intro v hv
  have hfew := h.few
  rw [List.length_append, List.length_singleton] at hfew
  exact (Nat.succ_le_succ (tally_few h.left a v hv)).trans_lt hfew

/-- **the server shows the tally** of the errors of an address after a run -/
theorem shows_after (h : site.Run xs) (a : Str) (hnow : ∀ x ∈ xs, x.now ≤ now) :
    site.Shows now (site.after (fun _ => none) xs) (errorsKey a) (site.tallyOf a xs) := by
  induction xs using List.reverseRecOn generalizing now with
  | nil => rfl
  | append_singleton xs x ih =>
    have hx : x ∈ xs ++ [x] := List.mem_append_right _ List.mem_cons_self
    have hstep := shows_step (ih h.left h.le_last) h.window (h.accepted x hx)
      (fun e he => h.apart e (he ▸ hx) a) (fun v hv => (tally_backed h.left a v hv).pos) (h.room a)
    have hbeat : site.beatsOf a [x] = (site.beatOf a x).toList :=
      (beatsOf_cons a x []).trans (List.append_nil _)
    rw [after_snoc, tallyOf_append, hbeat]
    exact hstep.later (hnow x hx)

/-! ## what is reported -/

/-- what the counter tells of an error -/
def countOf (site : ErrorSite) (x : Handed) (w : Option (HitWindow Int)) : Nat :=
  if x.delivery = .answered then (HitWindow.hit site.span x.now w).hits else 1

/-- an error is reported when the counter tells enough -/
theorem evaluates_count {x : Handed} (herror : site.IsError a x)
    (h : site.Shows x.now db (errorsKey a) w)
    (hw : 0 < site.self.windowSeconds ∧ site.self.windowSeconds < 2 ^ 53)
    (haccept : AcceptsTtl x.now site.self.windowSeconds)
    (hpos : ∀ v ∈ w, 0 < v.hits) (hfew : ∀ v ∈ w, v.hits + 1 < 2 ^ 53) :
    (site.evaluates x db).1 = if (site.countOf x w : Int) < site.self.threshold then .none
      else .found (found site.b x.event x.ctx (site.countOf x w)) := by
  have haddress : (x.event.source site.b).address ≠ [] := herror.2.1
  have hcount : (site.store.incrOver x.now x.delivery (errorsKey a) 1
      (some site.self.windowSeconds) db).1 = (site.countOf x w : Int) := by
    unfold RedisCounterStore.incrOver countOf
    cases x.delivery with
    | answered =>
      dsimp only
      rw [incr_shows h hw haccept hpos hfew, if_pos rfl]
    | requestLost => rfl
    | replyLost => rfl
  rw [evaluates_error herror]
  unfold RepeatedClientErrorRule.evaluate
  dsimp only
  rw [if_neg haddress, hcount]
  split <;> rfl

/-- what is reported of an error that comes after a run -/
theorem run_count {x : Handed} (h : site.Run (xs ++ [.evaluates x])) (herror : site.IsError a x) :
    (site.evaluates x (site.after (fun _ => none) xs)).1
      = if (site.countOf x (site.tallyOf a xs) : Int) < site.self.threshold then .none
        else .found (found site.b x.event x.ctx (site.countOf x (site.tallyOf a xs))) := by
  have hx : ErrorStep.evaluates x ∈ xs ++ [.evaluates x] :=
    List.mem_append_right _ List.mem_cons_self
  exact evaluates_count herror (shows_after h.left a h.le_last) h.window (h.accepted _ hx)
    (fun v hv => (tally_backed h.left a v hv).pos) (h.room a)

theorem Run.span_pos (h : site.Run xs) (t : Int) : t < t + site.span := by
  have := h.window.1
  unfold span seconds
  omega

/-- **No false alarm.** In every interleaving of the workers, whatever calls fail and whatever keys
the server drops, an event is reported only when as many errors of its address as the threshold
says, itself among them, were evaluated within the last window. -/
theorem errors_backed (site : ErrorSite) (xs ys : List ErrorStep) (x : Handed)
    (hrun : site.Run (xs ++ .evaluates x :: ys)) (m : RuleMatch)
    (hm : (site.evaluates x (site.after (fun _ => none) xs)).1 = .found m) :
    ∃ count : Nat, m = found site.b x.event x.ctx count ∧ site.self.threshold ≤ count ∧
      count ≤ (site.errorsOf (site.addressOf x) (xs ++ [.evaluates x])).countP
        fun y => decide (x.now < y.now + site.span) := by
  have hrun' : site.Run (xs ++ [.evaluates x]) := by
    rw [show ErrorStep.evaluates x :: ys = [.evaluates x] ++ ys from rfl,
      ← List.append_assoc] at hrun
    exact hrun.left
  have herror : site.IsError (site.addressOf x) x := by
    unfold evaluates at hm
    split at hm
    · rename_i happlies
      refine ⟨happlies, fun haddress => ?_, rfl⟩
      unfold RepeatedClientErrorRule.evaluate at hm
      unfold addressOf at haddress
      rw [haddress] at hm
      cases hm
    · cases hm
  rw [run_count hrun' herror] at hm
  split at hm
  · cases hm
  rename_i hlt
  refine ⟨_, (Outcome.found.inj hm).symm, Int.not_lt.mp hlt, ?_⟩
  have herrors : site.errorsOf (site.addressOf x) (xs ++ [.evaluates x])
      = site.errorsOf (site.addressOf x) xs ++ [x] := by
    rw [errorsOf_append]
    exact congrArg _ (List.filterMap_cons_some (errorOf_eq_some.mpr ⟨rfl, herror⟩))
  have hpast : ∀ t ∈ (site.errorsOf (site.addressOf x) xs).map Handed.now, t ≤ x.now := by
    intro t ht
    obtain ⟨y, hy, rfl⟩ := List.mem_map.mp ((errors_times _ xs).subset ht)
    exact hrun'.le_last y hy
  have hcountP : ∀ l : List Handed, l.countP (fun y => decide (x.now < y.now + site.span))
      = (l.map Handed.now).countP fun t => decide (x.now < t + site.span) := fun l => by
    rw [List.countP_map]
    rfl
  rw [herrors, hcountP, List.map_append]
  unfold countOf
  split
  · refine (hit_backed (hrun.span_pos x.now) (tally_backed hrun'.left (site.addressOf x))
      fun t ht => hpast t ((hits_sublist _ xs).subset ht)).trans ?_
    exact List.Sublist.countP_le (List.Sublist.append (hits_sublist _ xs) (List.Sublist.refl _))
  · rw [List.countP_append, List.map_singleton, List.countP_singleton,
      if_pos (decide_eq_true (hrun.span_pos x.now))]
    exact Nat.le_add_left 1 _

/-- two errors make a report -/
def sample : ErrorSite := ⟨.sample, .plain, .sample, { threshold := 2 }⟩

/-- a client error from `9.9.9.9` -/
def sampleError (worker : Nat) (now : Int) (delivery : Delivery) : Handed :=
  ⟨worker, now, .make (str "http.response.client_error") [(str "srcip", .string (str "9.9.9.9"))],
    false, ⟨now, []⟩, delivery⟩

/-- a failed login is counted elsewhere -/
def sampleLogin : Served := ⟨1, 500, .incr (loginFailuresKey (str "9.9.9.9")) 1 (some 300)⟩

theorem sampleLogin_apart (a : Str) : sampleLogin.call.key ≠ errorsKey a := by
  intro h
  have hprefix : (errorsKey a).take 7 = str "rules:r" := rfl
  rw [← h] at hprefix
  exact absurd hprefix (by decide)

/-- an error that does not get to the server between two that do -/
theorem errors_backed_sample : ∃ count : Nat,
    found .sample (sampleError 1 2000 .answered).event ⟨2000, []⟩ 2
        = found .sample (sampleError 1 2000 .answered).event ⟨2000, []⟩ count ∧
      (2 : Int) ≤ count ∧
      count ≤ (sample.errorsOf (sample.addressOf (sampleError 1 2000 .answered))
        ([.evaluates (sampleError 0 0 .answered), .serves sampleLogin,
          .evaluates (sampleError 1 1000 .requestLost)] ++
            [.evaluates (sampleError 1 2000 .answered)])).countP
        fun y => decide ((2000 : Int) < y.now + sample.span) :=
  errors_backed sample [.evaluates (sampleError 0 0 .answered), .serves sampleLogin,
    .evaluates (sampleError 1 1000 .requestLost)] [.evicts 3000 (str "sec_audit:block:ip:9.9.9.9")]
    (sampleError 1 2000 .answered)
    ⟨by decide, by decide, by decide, fun e he a => by
      simp only [List.cons_append, List.nil_append, List.mem_cons, reduceCtorEq,
        ErrorStep.serves.injEq, List.not_mem_nil, or_false, false_or] at he
      exact he ▸ sampleLogin_apart a, by decide⟩
    _ rfl

/-- a burst of errors from `a`: the server answers all of them, and does not drop their counter -/
structure Burst (site : ErrorSite) (a : Str) (xs : List ErrorStep) : Prop where
  answered : ∀ x, .evaluates x ∈ xs → site.IsError a x → x.delivery = .answered
  kept : ∀ now key, .evicts now key ∈ xs → key ≠ site.store.key (errorsKey a)

theorem Burst.left (h : site.Burst a (xs ++ ys)) : site.Burst a xs :=
  ⟨fun x hx => h.answered x (List.mem_append_left _ hx),
    fun now key hx => h.kept now key (List.mem_append_left _ hx)⟩

/-- in a burst every error is a hit -/
theorem beatsOf_burst (h : site.Burst a xs) :
    site.beatsOf a xs = ((site.errorsOf a xs).map Handed.now).map .hit := by
  unfold beatsOf errorsOf
  rw [List.map_map, ← List.filterMap_eq_map, List.filterMap_filterMap]
  refine List.filterMap_congr fun x hx => ?_
  cases x with
  | serves e => rfl
  | evicts now key =>
    unfold beatOf
    exact if_neg (h.kept now key hx)
  | evaluates x =>
    unfold beatOf errorOf
    dsimp only
    by_cases herror : site.IsError a x
    · have hanswered : x.delivery ≠ .requestLost := by
        rw [h.answered x hx herror]
        exact Delivery.noConfusion
      rw [if_pos herror, if_pos ⟨herror, hanswered⟩]
      rfl
    · rw [if_neg herror, if_neg fun hb => herror hb.1]
      rfl

/-- errors within one window come within a span of the first -/
theorem errors_within (htimes : (ys.map ErrorStep.now).Pairwise (· ≤ ·))
    (hspan : ∀ x ∈ site.errorsOf a ys, ∀ y ∈ site.errorsOf a ys, y.now < x.now + site.span)
    (hne : site.errorsOf a ys ≠ []) : ∃ start, ∀ t ∈ (site.errorsOf a ys).map Handed.now,
      start ≤ t ∧ t < start + site.span := by
  rcases he : site.errorsOf a ys with _ | ⟨first, rest⟩
  · exact absurd he hne
  have hsorted : ((first :: rest).map Handed.now).Pairwise (· ≤ ·) :=
    he ▸ htimes.sublist (errors_times a ys)
  rw [List.map_cons, List.pairwise_cons] at hsorted
  refine ⟨first.now, fun t ht => ?_⟩
  obtain ⟨y, hy, rfl⟩ := List.mem_map.mp ht
  refine ⟨?_, hspan first (he ▸ List.mem_cons_self) y (he ▸ hy)⟩
  rcases List.mem_cons.mp hy with rfl | hy
  · exact le_rfl
  · exact hsorted.1 _ (List.mem_map_of_mem hy)

/-- an error is that of a step, and the errors before it are those of the steps before -/
theorem errors_split {pre post : List Int} {t : Int}
    (h : (site.errorsOf a ys).map Handed.now = pre ++ t :: post) :
    ∃ us x vs, ys = us ++ .evaluates x :: vs ∧ site.IsError a x ∧ x.now = t ∧
      (site.errorsOf a us).map Handed.now = pre := by
  obtain ⟨es, es', hes, rfl, hes'⟩ := List.map_eq_append_iff.mp h
  obtain ⟨x, es'', rfl, rfl, -⟩ := List.map_eq_cons_iff.mp hes'
  obtain ⟨us, us', rfl, hus, hus'⟩ := List.filterMap_eq_append_iff.mp hes
  obtain ⟨us'', x', vs, rfl, hnone, hx, -⟩ := List.filterMap_eq_cons_iff.mp hus'
  obtain ⟨rfl, herror⟩ := errorOf_eq_some.mp hx
  refine ⟨us ++ us'', x, vs, (List.append_assoc ..).symm, herror, rfl, ?_⟩
  rw [errorsOf_append]
  unfold errorsOf
  rw [hus, List.filterMap_eq_nil_iff.mpr hnone, List.append_nil]

/-- **Bursts are reported.** Of `n` errors of an address within one window, `2 * threshold - 2` of
them or more, one is reported, in every interleaving of the workers that evaluate them and after
whatever has failed before. -/
theorem burst_reported (site : ErrorSite) (a : Str) (xs ys zs : List ErrorStep)
    (hrun : site.Run (xs ++ ys ++ zs)) (hburst : site.Burst a ys)
    (hspan : ∀ x ∈ site.errorsOf a ys, ∀ y ∈ site.errorsOf a ys, y.now < x.now + site.span)
    (hne : site.errorsOf a ys ≠ [])
    (hmany : 2 * site.self.threshold ≤ (site.errorsOf a ys).length + 2) :
    ∃ us x vs, ys = us ++ .evaluates x :: vs ∧ site.IsError a x ∧ ∃ count : Nat,
      (site.evaluates x (site.after (fun _ => none) (xs ++ us))).1
        = .found (found site.b x.event x.ctx count) ∧ site.self.threshold ≤ count := by
  have hxs : site.Run xs := hrun.left.left
  have htimes : (ys.map ErrorStep.now).Pairwise (· ≤ ·) := by
    have ht := hrun.left.times
    rw [List.map_append] at ht
    exact (List.pairwise_append.mp ht).2.1
  obtain ⟨start, hts⟩ := errors_within htimes hspan hne
  obtain ⟨pre, t, post, hsplit, hcount⟩ := @burst_counted Int _ _ _ site.span (site.tallyOf a xs)
    start site.self.threshold.toNat ((site.errorsOf a ys).map Handed.now)
    (fun v hv => (tally_backed hxs a v hv).pos) (by simpa using hne) hts
    (by rw [List.length_map]; omega)
  obtain ⟨us, x, vs, rfl, herror, rfl, hpre⟩ := errors_split hsplit
  have hupto : site.Run (xs ++ us ++ [.evaluates x]) := by
    rw [show xs ++ (us ++ .evaluates x :: vs) ++ zs
      = xs ++ us ++ [.evaluates x] ++ (vs ++ zs) by simp] at hrun
    exact hrun.left
  have htally : site.tallyOf a (xs ++ us)
      = HitWindow.after site.span (site.tallyOf a xs) (pre.map .hit) := by
    rw [tallyOf_append, beatsOf_burst hburst.left, hpre]
  have hreach : site.self.threshold ≤ site.countOf x (site.tallyOf a (xs ++ us)) := by
    unfold countOf
    rw [if_pos (hburst.answered x (List.mem_append_right _ List.mem_cons_self) herror), htally]
    omega
  refine ⟨us, x, vs, rfl, herror, _, ?_, hreach⟩
  rw [run_count hupto herror, if_neg (Int.not_lt.mpr hreach)]

/-- two errors at two workers, after one whose answer did not get back -/
theorem burst_reported_two : ∃ us x vs,
    [ErrorStep.evaluates (sampleError 0 310000 .answered),
      .evaluates (sampleError 1 320000 .answered)] = us ++ .evaluates x :: vs ∧
    sample.IsError (str "9.9.9.9") x ∧ ∃ count : Nat,
      (sample.evaluates x (sample.after (fun _ => none)
          ([.evaluates (sampleError 0 0 .replyLost)] ++ us))).1
        = .found (found .sample x.event x.ctx count) ∧ (2 : Int) ≤ count :=
  burst_reported sample (str "9.9.9.9") [.evaluates (sampleError 0 0 .replyLost)]
    [.evaluates (sampleError 0 310000 .answered), .evaluates (sampleError 1 320000 .answered)] []
    ⟨by decide, by decide, by decide, fun e he => by simp at he, by decide⟩
    ⟨fun x hx _ => by
      simp only [List.mem_cons, ErrorStep.evaluates.injEq, List.not_mem_nil, or_false] at hx
      rcases hx with rfl | rfl <;> rfl, fun now key hk => by simp at hk⟩
    (by decide) (by decide) (by decide)

/-- three errors do not do for a threshold of three, where the window of an earlier one ends -/
example : ErrorSite.beatsOf sample (str "9.9.9.9")
      ([0, 299000, 300000, 301000].map fun t => .evaluates (sampleError 0 t .answered))
        = [0, 299000, 300000, 301000].map .hit ∧
    [(HitWindow.after sample.span none ([0].map .hit)), HitWindow.after sample.span none
      ([0, 299000].map .hit), HitWindow.after sample.span none ([0, 299000, 300000].map .hit)].map
        (fun w => w.map HitWindow.hits) = [some 1, some 2, some 1] := by decide

end ErrorSite

end SecAudit
