import SecAudit.Stores.Banned

/-!
# A ban written while Redis fails

`block(ttl=None)` passes over a failure of its two Redis writes.  The row is there all the same; what
decides is whether a sentinel from before the ban is left behind.

* `Later`, `after`  what may happen before and after: any calls, time, evictions, and failures of
                    either backend;
* `InForce.alone`, `InForce.read`  calls that run alone keep a ban in force; reads then find it;
* `ban_survives_outage`  the ban is enforced from then on exactly when the `DEL` of the sentinel went
                    through, or no sentinel that omits the scope was live.
-/

set_option linter.unusedVariables false
set_option linter.unusedSectionVars false

namespace SecAudit
open Py Prog

inductive Later where
  | call (o : Op)
  | env (x : Env)
  /-- the backend calls that fail from now on -/
  | outage (faults : List (Option Fault))

section
variable (b : Builtins) (st : TieredBlockStore)

def Later.apply (w : World) : Later → World
  | .call o => (exec backend (o.prog b st) w).2
  | .env x => x.apply w
  | .outage faults => { w with faults := faults }

/-- the world after `xs`, one at a time -/
def after (w : World) (xs : List Later) : World := xs.foldl (Later.apply b st) w

/-- a read of `scopes` found an entry, or raised `BlockStoreError`; outside its limits it may raise
what they raise -/
def Enforced (w : World) (scopes : List BlockScope) (r : Except Exc (Option BlockEntry)) : Prop :=
  (∃ e, r = .ok (some e)) ∨
  ∃ x, r = .error x ∧ (WithinFor st w scopes → x.isBlockStoreError = true)

/-- every read of `s` -/
def EnforcedIn (s : BlockScope) (w : World) : Prop :=
  (∀ scopes, s ∈ scopes → Enforced st w scopes (exec backend (st.firstActive b scopes) w).1) ∧
  Enforced st w [s] (exec backend (st.getActive b s) w).1

end

section
variable {b : Builtins} {st : TieredBlockStore} {s : BlockScope} {hs : s.encodable = true}
  {w : World} (hpg : st.pg = true)

/-! ## before and after -/

theorem base_empty (b : Builtins) (st : TieredBlockStore) (t : Int) :
    Agrees b (.base st) (World.empty t) where
  permanent := fun r hr => absurd hr List.not_mem_nil
  banned := nofun
  rows := fun r hr => absurd hr List.not_mem_nil
  hits := nofun
  warm := nofun

include hpg

/-- the base facts hold of every world that calls, time, evictions and failures lead to -/
theorem base_after (h : Agrees b (.base st) w) (xs : List Later) :
    Agrees b (.base st) (after b st w xs) := by
  induction xs generalizing w with
  | nil => exact h
  | cons x xs ih =>
    refine ih ?_
    cases x with
    | call o => exact base_alone hpg h o
    | env x => exact h.env x
    | outage faults => exact ⟨h.permanent, h.banned, h.rows, h.hits, h.warm⟩

/-- a ban stays in force until it is revoked -/
theorem InForce.after (h : InForce st hs b w) {xs : List Later}
    (hx : ∀ reason revokedBy, Later.call (.unblock s reason revokedBy) ∉ xs) :
    InForce st hs b (after b st w xs) := by
  induction xs generalizing w with
  | nil => exact h
  | cons x xs ih =>
    refine ih ?_ fun reason revokedBy hm => hx reason revokedBy (List.mem_cons_of_mem _ hm)
    cases x with
    | call o =>
      refine h.alone hpg fun reason revokedBy e => hx reason revokedBy ?_
      rw [e]
      exact List.mem_cons_self
    | env x => exact h.env x
    | outage faults => exact ⟨h.permanent, h.banned, h.rows, h.hits, h.warm⟩

theorem InForce.enforced (h : InForce st hs b w) : EnforcedIn b st s w := by
  constructor
  · intro scopes hm
    refine (h.read hm fun F hF => reads_firstActive hpg hF).imp_right ?_
    rintro ⟨x, hx, hb⟩
    exact ⟨x, hx, fun hw => (hb hw).1⟩
  · have hm : s ∈ [s] := List.mem_singleton_self s
    refine (h.read hm fun F hF => reads_getActive hpg fun hw => hF hw s hm).imp_right ?_
    rintro ⟨x, hx, hb⟩
    exact ⟨x, hx, fun hw => (hb hw).1⟩

end

/-! ## the ban itself -/

section
variable {b : Builtins} {st : TieredBlockStore} {s : BlockScope} {w : World}

/-- what a permanent block that returned leaves behind -/
theorem block_leaves (hpg : st.pg = true) {a : BlockArgs} {e : BlockEntry} {w' : World}
    (h : exec backend (st.block b s a none) w = (.ok e, w')) :
    s.encodable = true ∧ encodable st.redis.keyPrefix = true ∧ w'.now = w.now ∧
      s ∈ scopesOf w'.table.rows ∧
      (w.faults[2]?.join = none → w'.read st.redis.warmKey = none) ∧
      (w.faults[2]?.join ≠ none → w'.read st.redis.warmKey = w.read st.redis.warmKey) := by
  obtain ⟨hs, ha, hk, hf, w1, w2, hw1, h2, h3⟩ := block_permanent_ok hpg h
  have e1 : w1.now = w.now ∧ w1.redis = w.redis ∧ w1.faults = w.faults.tail := by
    rw [hw1]
    exact ⟨rfl, rfl, rfl⟩
  -- the cache entry leaves clock, table and sentinel alone
  have e2 : w2.now = w.now ∧ w2.table = w1.table ∧ w2.faults = w.faults.tail.tail ∧
      w2.read st.redis.warmKey = w.read st.redis.warmKey := by
    rcases h2 with ⟨v, -, -, -, -, rfl⟩ | ⟨-, rfl⟩
    · refine ⟨e1.1, rfl, congrArg List.tail e1.2.2, ?_⟩
      show (w1.redis.put _ v _).get w1.now _ = _
      rw [ExpMap.get_put_other _ _ _ _ (key_ne_warmKey st.redis s).symm, e1.1, e1.2.1]
      rfl
    · refine ⟨e1.1, rfl, congrArg List.tail e1.2.2, ?_⟩
      show w1.redis.get w1.now _ = _
      rw [e1.1, e1.2.1]
      rfl
  have hfault : w2.fault = w.faults[2]?.join := by
    unfold World.fault
    rw [e2.2.2.1]
    rcases w.faults with _ | ⟨_, _ | ⟨_, _ | ⟨_, _⟩⟩⟩ <;> rfl
  have hrow : s ∈ scopesOf w2.table.rows := by
    rw [e2.2.1, hw1]
    exact Table.mem_scopesOf_upsert.mpr (.inl rfl)
  refine ⟨encodable_of_texts hs, (encodable_warmKey st.redis).mp hk, ?_⟩
  rcases h3 with ⟨hn, rfl⟩ | ⟨hn, rfl⟩
  · refine ⟨e2.1, hrow, fun _ => ExpMap.get_drop_same .., fun hd => ?_⟩
    rw [← hfault] at hd
    exact absurd hn hd
  · refine ⟨e2.1, hrow, fun hd => ?_, fun _ => e2.2.2.2⟩
    rw [← hfault] at hd
    exact absurd hd hn

theorem backend_get (hf : w.faults = []) {k : Str} (hk : encodable k = true) :
    backend _ (.get k) w = (.ok (w.read k), w) := by
  obtain ⟨n, r, t, f⟩ := w
  obtain rfl : f = [] := hf
  show World.send _ [k] (fun _ => .redisError) (fun w => (.ok (w.read k), w)) = _
  unfold World.send
  rw [if_pos (by simpa using hk)]
  rfl

/-- a sentinel that omits the scope answers a miss by itself -/
theorem answer_uncovered (hf : w.faults = []) (hp : encodable st.redis.keyPrefix = true)
    {text : Str} (hw : w.read st.redis.warmKey = some text)
    (hc : CoversText b (fun _ => False) text) (hn : ¬ CoversText b (· = s) text) :
    exec backend (st.answerWarmMiss b [s]) w = (.ok none, w) := by
  obtain ⟨data, hl, hc⟩ := hc
  have hwarm : exec backend st.redis.readWarm w = (.ok (some data), w) := by
    unfold RedisBlockStore.readWarm
    rw [exec_bind, exec_wrap, exec_perform, backend_get hf ((encodable_warmKey _).mpr hp), hw]
    dsimp only
    rw [hl]
    rfl
  unfold TieredBlockStore.answerWarmMiss
  rw [exec_bind_ok _ hwarm]
  rcases hc with ⟨ms, ⟨v, hv, hms⟩, -⟩ | ⟨allowed, ⟨hno, htr, hty⟩, -⟩
  · dsimp only
    rw [hv]
    show exec backend (ofExcept (memberSet b v) >>= _) w = _
    rw [exec_bind, exec_ofExcept, hms]
    show exec backend (if s.pair ∈ ms then _ else _) w = _
    rw [if_neg]
    · rfl
    · exact fun h => hn ⟨data, hl, .inl ⟨ms, ⟨v, hv, hms⟩, fun s' e => by rw [e]; exact h⟩⟩
  · dsimp only
    rw [hno]
    dsimp only
    rw [if_pos htr]
    show exec backend (ofExcept (toSet b (Json.lookup (str "types") data)) >>= _) w = _
    rw [exec_bind, exec_ofExcept, hty]
    show exec backend (if [s].filter (fun s => inSet s.scopeType allowed) = [] then _ else _) w = _
    rw [if_pos]
    · rfl
    · have h : inSet s.scopeType allowed ≠ true := fun h => hn ⟨data, hl, .inr ⟨allowed,
        ⟨hno, htr, hty⟩, fun s' e => by rw [e]; exact h⟩⟩
      simp [h]

/-- with the key of the block gone, the read misses the ban -/
theorem read_uncovered (hpg : st.pg = true) (hf : w.faults = []) (hs : s.encodable = true)
    (hp : encodable st.redis.keyPrefix = true) (hkey : w.read (st.redis.key s) = none)
    {text : Str} (hw : w.read st.redis.warmKey = some text)
    (hc : CoversText b (fun _ => False) text) (hn : ¬ CoversText b (· = s) text) :
    exec backend (st.getActive b s) w = (.ok none, w) := by
  have hmiss : exec backend (st.redis.getActive b s) w = (.ok none, w) := by
    unfold RedisBlockStore.getActive
    rw [exec_bind, exec_wrap, exec_perform, backend_get hf ((encodable_key _).mpr ⟨hp, hs⟩), hkey]
    show exec backend (RedisBlockStore.decode b none) w = _
    rw [decode_miss rfl]
    rfl
  unfold TieredBlockStore.getActive
  rw [exec_bind_ok _ hmiss]
  show exec backend (if st.pg = true then _ else _) w = _
  rw [if_pos hpg]
  exact answer_uncovered hf hp hw hc hn

/-- both backends are up again, and every key but the sentinel is evicted -/
def evicted (st : TieredBlockStore) : List Later :=
  [.outage [], .env (.evict fun k => decide (k ≠ st.redis.warmKey))]

theorem after_evicted (w : World) : after b st w (evicted st) =
    { w with faults := [], redis := w.redis.evict fun k => decide (k ≠ st.redis.warmKey) } := rfl

/-- **A ban written while Redis fails.**  After any history, a `block(ttl=None)` that returned is
enforced from then on, until it is revoked, exactly when its `DEL` of the sentinel (the third
backend call) went through or no sentinel that omits the scope was live. -/
theorem ban_survives_outage (b : Builtins) (st : TieredBlockStore) (hpg : st.pg = true) (t : Int)
    (before : List Later) (s : BlockScope) (a : BlockArgs) (e : BlockEntry) (w' : World)
    (hblock : exec backend (st.block b s a none) (after b st (World.empty t) before) = (.ok e, w')) :
    (∀ later, (∀ reason revokedBy, Later.call (.unblock s reason revokedBy) ∉ later) →
      EnforcedIn b st s (after b st w' later)) ↔
    ((after b st (World.empty t) before).faults[2]?.join = none ∨
      ∀ text, (after b st (World.empty t) before).read st.redis.warmKey = some text →
        CoversText b (· = s) text) := by
  have hbase := base_after hpg (base_empty b st t) before
  generalize hw : after b st (World.empty t) before = w at hblock hbase ⊢
  obtain ⟨hs, hp, hnow, hrow, hdel, hkeep⟩ := block_leaves hpg hblock
  have hbase' : Agrees b (.base st) w' := by
    have := base_alone hpg hbase (.block s a none)
    unfold Op.prog at this
    rw [exec_bind_ok _ hblock] at this
    exact this
  constructor
  · intro h
    by_contra hc
    obtain ⟨hd, hc⟩ := not_or.mp hc
    obtain ⟨text, hc⟩ := not_forall.mp hc
    obtain ⟨htext, hn⟩ := Classical.not_imp.mp hc
    rw [← hkeep hd] at htext
    have henf := (h (evicted st) fun reason revokedBy hm => by
      rcases List.mem_cons.mp hm with he | hm
      · cases he
      · cases List.mem_singleton.mp hm).2
    have hwarm : (after b st w' (evicted st)).read st.redis.warmKey = some text := by
      rw [after_evicted]
      show (w'.redis.evict fun k => decide (k ≠ st.redis.warmKey)).get w'.now _ = _
      rw [ExpMap.get_evict, if_neg (by simp)]
      exact htext
    have hkey : (after b st w' (evicted st)).read (st.redis.key s) = none := by
      rw [after_evicted]
      show (w'.redis.evict fun k => decide (k ≠ st.redis.warmKey)).get w'.now _ = _
      rw [ExpMap.get_evict, if_pos (decide_eq_true (key_ne_warmKey st.redis s))]
    rw [read_uncovered hpg rfl hs hp hkey hwarm
      (hbase'.warm w'.now text (Int.le_refl _) htext) hn] at henf
    rcases henf with ⟨e, he⟩ | ⟨x, hx, -⟩
    · cases he
    · cases hx
  · intro hc later hl
    have hforce : InForce st hs b w' := by
      refine .of_base hbase' hrow fun text htext => ?_
      by_cases hd : w.faults[2]?.join = none
      · rw [hdel hd] at htext
        cases htext
      · rw [hkeep hd] at htext
        exact (hc.resolve_left hd) text htext
    exact (hforce.after hpg hl).enforced hpg

/-- a call returned a result -/
def returned {α : Type} (r : Except Exc α) : Bool := r.isOk

/-- a read answered `None` -/
def missed : Except Exc (Option BlockEntry) → Bool
  | .ok none => true
  | _ => false

theorem not_enforced {st : TieredBlockStore} {w : World} {scopes : List BlockScope}
    {r : Except Exc (Option BlockEntry)} (h : missed r = true) : ¬ Enforced st w scopes r := by
  rintro (⟨e, rfl⟩ | ⟨x, rfl, -⟩)
  · cases h
  · cases h

/-- a read has left a sentinel with no member; the next ban's `SET` fails, its `DEL` does not -/
def setDown : List Later := [.call (.getActive .sample), .outage [none, some .down]]

theorem ban_survives_outage_set :
    ∃ e w', ((after .sample .sample (World.empty 0) setDown).read
        TieredBlockStore.sample.redis.warmKey).isSome = true ∧
      exec backend (TieredBlockStore.sample.block .sample .sample {} none)
        (after .sample .sample (World.empty 0) setDown) = (.ok e, w') ∧
      w'.read (TieredBlockStore.sample.redis.key .sample) = none ∧
      ∀ later, (∀ reason revokedBy, Later.call (.unblock .sample reason revokedBy) ∉ later) →
        EnforcedIn .sample .sample .sample (after .sample .sample w' later) := by
  have hrun : (((after .sample .sample (World.empty 0) setDown).read
      TieredBlockStore.sample.redis.warmKey).isSome &&
    returned (exec backend (TieredBlockStore.sample.block .sample .sample {} none)
      (after .sample .sample (World.empty 0) setDown)).1 &&
    decide ((exec backend (TieredBlockStore.sample.block .sample .sample {} none)
      (after .sample .sample (World.empty 0) setDown)).2.read
      (TieredBlockStore.sample.redis.key .sample) = none)) = true := by
    decide +kernel
  simp only [Bool.and_eq_true, decide_eq_true_eq] at hrun
  obtain ⟨⟨hwarm, hok⟩, hkey⟩ := hrun
  rcases hx : exec backend (TieredBlockStore.sample.block .sample .sample {} none)
    (after .sample .sample (World.empty 0) setDown) with ⟨r, w'⟩
  rw [hx] at hok hkey
  cases r with
  | error x => cases hok
  | ok e =>
    exact ⟨e, w', hwarm, rfl, hkey, (ban_survives_outage .sample .sample rfl 0 setDown .sample {} e
      w' hx).mpr (.inl rfl)⟩

/-- a read has left a sentinel with no member; the next ban's `SET` and `DEL` fail -/
def redisDown : List Later :=
  [.call (.getActive .sample), .outage [none, some .down, some .down]]

theorem ban_survives_outage_missed :
    ∃ e w', exec backend (TieredBlockStore.sample.block .sample .sample {} none)
        (after .sample .sample (World.empty 0) redisDown) = (.ok e, w') ∧
      ¬ EnforcedIn .sample .sample .sample (after .sample .sample w' [.outage []]) := by
  have hrun : (returned (exec backend (TieredBlockStore.sample.block .sample .sample {} none)
      (after .sample .sample (World.empty 0) redisDown)).1 &&
    missed (exec backend (TieredBlockStore.sample.getActive .sample .sample)
      (after .sample .sample (exec backend (TieredBlockStore.sample.block .sample .sample {} none)
        (after .sample .sample (World.empty 0) redisDown)).2 [.outage []])).1) = true := by
    decide +kernel
  obtain ⟨hok, hmiss⟩ := Bool.and_eq_true_iff.mp hrun
  rcases hx : exec backend (TieredBlockStore.sample.block .sample .sample {} none)
    (after .sample .sample (World.empty 0) redisDown) with ⟨r, w'⟩
  rw [hx] at hok hmiss
  cases r with
  | error x => cases hok
  | ok e => exact ⟨e, w', rfl, fun h => not_enforced hmiss h.2⟩

end

end SecAudit
