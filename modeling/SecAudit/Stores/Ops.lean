import SecAudit.Stores.Reads

/-!
# The operations of the tiered store, and what its writes do when they run alone

* `Op`, `Op.prog`   `block`, `unblock`, `get_active`, `first_active` with their arguments;
* `Env`, `Env.apply`  what else happens to the backends: time passes, Redis drops keys;
* `redis_block_cases`, `block_permanent_ok`, `unblock_ok`  the world after a write that returned.
-/

set_option linter.unusedVariables false
set_option linter.unusedSectionVars false

namespace SecAudit
open Py Prog

inductive Op where
  | block (scope : BlockScope) (a : BlockArgs) (ttl : Option Int)
  | unblock (scope : BlockScope) (reason revokedBy : Str)
  | getActive (scope : BlockScope)
  | firstActive (scopes : List BlockScope)

/-- what an operation returns -/
inductive Answer where
  | entry (e : BlockEntry)
  | count (n : Int)
  | found (o : Option BlockEntry)

def Op.prog (b : Builtins) (st : TieredBlockStore) : Op → Call Answer
  | .block s a ttl => do
    let e ← st.block b s a ttl
    return .entry e
  | .unblock s reason revokedBy => do
    let n ← st.unblock s reason revokedBy
    return .count n
  | .getActive s => do
    let o ← st.getActive b s
    return .found o
  | .firstActive ss => do
    let o ← st.firstActive b ss
    return .found o

/-- the scopes an operation names -/
def Op.scopes : Op → List BlockScope
  | .block s _ _ => [s]
  | .unblock s _ _ => [s]
  | .getActive s => [s]
  | .firstActive ss => ss

inductive Env where
  | advance (d : Nat)
  /-- Redis evicts the keys `p` picks; a flush picks them all -/
  | evict (p : Str → Bool)

def Env.apply : Env → World → World
  | .advance d, w => { w with now := w.now + d }
  | .evict p, w => { w with redis := w.redis.evict p }

/-- the default configuration, with a Postgres store -/
def TieredBlockStore.sample : TieredBlockStore := ⟨⟨str "sec_audit", 3600⟩, true, 3600⟩

/-! ## writes that run alone -/

/-- a payload that `block` writes for `s` with the keywords `a` -/
def Written (b : Builtins) (s : BlockScope) (a : BlockArgs) (v : Str) : Prop :=
  ∃ createdAt expiresAt, entryToJson b (.make s a createdAt expiresAt) = .ok v

theorem Written.decodes {b : Builtins} {s : BlockScope} {a : BlockArgs} {v : Str}
    (h : Written b s a v) : Decodes b s v := by
  obtain ⟨createdAt, expiresAt, hv⟩ := h
  exact decodes_payload hv

theorem exec_wrap {α : Type} (picked : Exc → Bool) (text : Str) (p : Call α) (w : World) :
    exec backend (Call.wrap picked text p) w = match exec backend p w with
      | (.ok a, w') => (.ok a, w')
      | (.error e, w') => (.error (if picked e then .blockStoreError text else e), w') := by
  unfold Call.wrap
  rw [exec_catchWith]
  rcases exec backend p w with ⟨r, w'⟩
  cases r with
  | ok a => rfl
  | error e =>
    show exec backend (if picked e = true then Prog.throw _ else Prog.throw _) w'
      = (.error (if picked e = true then _ else _), w')
    by_cases hp : picked e = true
    · rw [if_pos hp, if_pos hp, exec_throw]
    · rw [if_neg hp, if_neg hp, exec_throw]

/-- after a `SET` that went through -/
def World.stored (w : World) (k v : Str) (ex : Int) : World :=
  { w.sent with redis := w.redis.put k v (w.now + seconds ex) }

/-- after a `DEL` that went through -/
def World.dropped (w : World) (k : Str) : World := { w.sent with redis := w.redis.drop k }

/-- after an `update_or_create` that went through -/
def World.upserted (w : World) (s : BlockScope) (a : BlockArgs) (t : Int) : World :=
  { w.sent with table := (w.table.upsert s a none t).2 }

/-- after a revocation that went through -/
def World.revoked (w : World) (s : BlockScope) (reason revokedBy : Str) (t : Int) : World :=
  { w.sent with table := (w.table.revoke s reason revokedBy t).2 }

/-- what `SET` does when it is sent -/
theorem set_cases {w w' : World} {k v : Str} {ex : Int} {r : Except Exc Unit}
    (h : backend _ (.set k v ex) w = (r, w')) :
    (r = .ok () ∧ encodable k = true ∧ 0 < ex ∧ w.fault = none ∧ w' = w.stored k v ex) ∨
    (r = .error .redisError ∧ (w.fault ≠ none ∨ ex ≤ 0) ∧ w' = w.sent) ∨
    (r = .error .unicodeError ∧ w' = w) := by
  have h' : w.send [k, v] (fun _ => .redisError) (fun w =>
      if 0 < ex then (.ok (), { w with redis := w.redis.put k v (w.now + seconds ex) })
      else (.error .redisError, w)) = (r, w') := h
  unfold World.send at h'
  by_cases he : [k, v].all encodable = true
  · rw [if_pos he] at h'
    rw [List.all_cons, Bool.and_eq_true] at he
    cases hf : w.fault with
    | some f =>
      simp only [hf] at h'
      obtain ⟨rfl, rfl⟩ := Prod.mk.inj h'
      exact .inr (.inl ⟨rfl, .inl nofun, rfl⟩)
    | none =>
      simp only [hf] at h'
      by_cases hex : 0 < ex
      · rw [if_pos hex] at h'
        obtain ⟨rfl, rfl⟩ := Prod.mk.inj h'
        exact .inl ⟨rfl, he.1, hex, rfl, rfl⟩
      · rw [if_neg hex] at h'
        obtain ⟨rfl, rfl⟩ := Prod.mk.inj h'
        exact .inr (.inl ⟨rfl, .inr (by omega), rfl⟩)
  · rw [if_neg he] at h'
    obtain ⟨rfl, rfl⟩ := Prod.mk.inj h'
    exact .inr (.inr ⟨rfl, rfl⟩)

/-- what `DEL` does when it is sent -/
theorem delete_cases {w w' : World} {k : Str} {r : Except Exc Int}
    (h : backend _ (.delete k) w = (r, w')) :
    (r = .ok (if (w.read k).isSome then 1 else 0) ∧ encodable k = true ∧ w.fault = none ∧
      w' = w.dropped k) ∨
    (r = .error .redisError ∧ encodable k = true ∧ w.fault ≠ none ∧ w' = w.sent) ∨
    (r = .error .unicodeError ∧ w' = w) := by
  have h' : w.send [k] (fun _ => .redisError) (fun w =>
      (.ok (if (w.read k).isSome then 1 else 0), { w with redis := w.redis.drop k }))
      = (r, w') := h
  unfold World.send at h'
  by_cases he : [k].all encodable = true
  · rw [if_pos he] at h'
    replace he : encodable k = true := by simpa using he
    cases hf : w.fault with
    | some f =>
      simp only [hf] at h'
      obtain ⟨rfl, rfl⟩ := Prod.mk.inj h'
      exact .inr (.inl ⟨rfl, he, nofun, rfl⟩)
    | none =>
      simp only [hf] at h'
      obtain ⟨rfl, rfl⟩ := Prod.mk.inj h'
      exact .inl ⟨rfl, he, rfl, rfl⟩
  · rw [if_neg he] at h'
    obtain ⟨rfl, rfl⟩ := Prod.mk.inj h'
    exact .inr (.inr ⟨rfl, rfl⟩)

section
variable {b : Builtins}

/-- `RedisBlockStore.block`: written, refused by Redis, or not sent -/
theorem redis_block_cases {st : RedisBlockStore} {s : BlockScope} {a : BlockArgs} {n : Int}
    {w w' : World} {r : Except Exc BlockEntry}
    (h : exec backend (st.block b s a (some n)) w = (r, w')) :
    (∃ e v, r = .ok e ∧ e.scope = s ∧ encodable (st.key s) = true ∧ 0 < n ∧ w.fault = none ∧
      Written b s a v ∧ w' = w.stored (st.key s) v n) ∨
    (∃ x, r = .error x ∧ x.isBlockStoreError = true ∧ (w.fault ≠ none ∨ n ≤ 0) ∧ w' = w.sent) ∨
    (∃ x, r = .error x ∧ x.isBlockStoreError = false ∧ w' = w) := by
  unfold RedisBlockStore.block at h
  rw [exec_bind, exec_perform] at h
  replace h : exec backend (Prog.ofExcept (addSeconds w.now n) >>= fun expiresAt => _) w
    = (r, w') := h
  rw [exec_bind, exec_ofExcept] at h
  cases hs : addSeconds w.now n with
  | error x =>
    rw [hs] at h
    obtain ⟨rfl, rfl⟩ := Prod.mk.inj h
    refine .inr (.inr ⟨x, rfl, ?_, rfl⟩)
    rw [addSeconds_error hs]
    rfl
  | ok expiresAt =>
    rw [hs] at h
    replace h : exec backend (Prog.ofExcept (entryToJson b (.make s a (some w.now)
      (some expiresAt))) >>= fun payload => _) w = (r, w') := h
    rw [exec_bind, exec_ofExcept] at h
    cases hp : entryToJson b (.make s a (some w.now) (some expiresAt)) with
    | error x =>
      rw [hp] at h
      obtain ⟨rfl, rfl⟩ := Prod.mk.inj h
      refine .inr (.inr ⟨x, rfl, ?_, rfl⟩)
      rw [entryToJson_error hp]
      rfl
    | ok v =>
      rw [hp] at h
      replace h : exec backend (Call.wrap isRedisError (str "Redis block write failed.")
        (perform (.set (st.key s) v n)) >>= fun _ => _) w = (r, w') := h
      rw [exec_bind, exec_wrap, exec_perform] at h
      rcases hset : backend _ (.set (st.key s) v n) w with ⟨r1, w1⟩
      rw [hset] at h
      rcases set_cases hset with ⟨rfl, hk, hn, hf, rfl⟩ | ⟨rfl, hf, rfl⟩ | ⟨rfl, rfl⟩
      · obtain ⟨rfl, rfl⟩ := Prod.mk.inj h
        exact .inl ⟨_, v, rfl, rfl, hk, hn, hf, ⟨_, _, hp⟩, rfl⟩
      · obtain ⟨rfl, rfl⟩ := Prod.mk.inj h
        exact .inr (.inl ⟨_, rfl, rfl, hf, rfl⟩)
      · obtain ⟨rfl, rfl⟩ := Prod.mk.inj h
        exact .inr (.inr ⟨_, rfl, rfl, rfl⟩)

variable {st : TieredBlockStore}

/-- `_cache_permanent`: written, refused and passed over, or raised -/
theorem cachePermanent_cases {entry : BlockEntry} {w w' : World} {r : Except Exc Unit}
    (h : exec backend (st.cachePermanent b entry) w = (r, w')) :
    (r = .ok () ∧
      ((∃ v, encodable (st.redis.key entry.scope) = true ∧ 0 < st.permanentCacheTtl ∧
          w.fault = none ∧ Written b entry.scope entry.args v ∧
          w' = w.stored (st.redis.key entry.scope) v st.permanentCacheTtl) ∨
        ((w.fault ≠ none ∨ st.permanentCacheTtl ≤ 0) ∧ w' = w.sent))) ∨
    (∃ x, r = .error x ∧ x.isBlockStoreError = false) := by
  unfold TieredBlockStore.cachePermanent TieredBlockStore.bestEffort TieredBlockStore.cacheEntry at h
  rw [exec_catchWith, exec_bind] at h
  rcases hb : exec backend (st.redis.block b entry.scope entry.args (some st.permanentCacheTtl)) w
    with ⟨r1, w1⟩
  rw [hb] at h
  rcases redis_block_cases hb with ⟨e, v, rfl, -, hk, hn, hf, hd, rfl⟩ |
    ⟨x, rfl, hx, hf, rfl⟩ | ⟨x, rfl, hx, -⟩
  · obtain ⟨rfl, rfl⟩ := Prod.mk.inj h
    exact .inl ⟨rfl, .inl ⟨v, hk, hn, hf, hd, rfl⟩⟩
  · replace h : exec backend (if x.isBlockStoreError = true then pure () else Prog.throw x) w.sent
      = (r, w') := h
    rw [if_pos hx, exec_pure] at h
    obtain ⟨rfl, rfl⟩ := Prod.mk.inj h
    exact .inl ⟨rfl, .inr ⟨hf, rfl⟩⟩
  · replace h : exec backend (if x.isBlockStoreError = true then pure () else Prog.throw x) w1
      = (r, w') := h
    rw [if_neg (by simp [hx]), exec_throw] at h
    obtain ⟨rfl, rfl⟩ := Prod.mk.inj h
    exact .inr ⟨x, rfl, hx⟩

/-- `_invalidate_warm`: dropped, refused and passed over, or raised -/
theorem invalidateWarm_cases {w w' : World} {r : Except Exc Unit}
    (h : exec backend st.invalidateWarm w = (r, w')) :
    (r = .ok () ∧ encodable st.redis.warmKey = true ∧
      ((w.fault = none ∧ w' = w.dropped st.redis.warmKey) ∨ (w.fault ≠ none ∧ w' = w.sent))) ∨
    (∃ x, r = .error x ∧ x.isBlockStoreError = false) := by
  unfold TieredBlockStore.invalidateWarm TieredBlockStore.bestEffort RedisBlockStore.clearWarm at h
  rw [exec_catchWith, exec_bind, exec_wrap, exec_perform] at h
  rcases hd : backend _ (.delete st.redis.warmKey) w with ⟨r1, w1⟩
  rw [hd] at h
  rcases delete_cases hd with ⟨rfl, hk, hf, rfl⟩ | ⟨rfl, hk, hf, rfl⟩ | ⟨rfl, rfl⟩
  · obtain ⟨rfl, rfl⟩ := Prod.mk.inj h
    exact .inl ⟨rfl, hk, .inl ⟨hf, rfl⟩⟩
  · obtain ⟨rfl, rfl⟩ := Prod.mk.inj h
    exact .inl ⟨rfl, hk, .inr ⟨hf, rfl⟩⟩
  · obtain ⟨rfl, -⟩ := Prod.mk.inj h
    exact .inr ⟨_, rfl, rfl⟩

theorem encodable_of_texts {s : BlockScope} {l : List Str}
    (h : (s.texts ++ l).all encodable = true) : s.encodable = true := by
  rw [List.all_append, Bool.and_eq_true] at h
  unfold BlockScope.encodable
  have := h.1
  unfold BlockScope.texts at this
  simp only [List.all_cons, List.all_nil, Bool.and_true] at this
  exact this

/-- what a command to Postgres does when it is sent -/
theorem sendTable_ok {β : Type} {w w' : World} {texts : List Str}
    {run : World → Except Exc β × World} {a : β} (h : w.sendTable texts run = (.ok a, w')) :
    texts.all encodable = true ∧ w.fault = none ∧ run w.sent = (.ok a, w') := by
  unfold World.sendTable World.send at h
  by_cases he : texts.all encodable = true
  · rw [if_pos he] at h
    cases hf : w.fault with
    | some f =>
      simp only [hf] at h
      cases (Prod.mk.inj h).1
    | none =>
      simp only [hf] at h
      exact ⟨he, rfl, h⟩
  · rw [if_neg he] at h
    cases (Prod.mk.inj h).1

theorem pg_block_ok {s : BlockScope} {a : BlockArgs} {w w' : World} {e : BlockEntry}
    (h : exec backend (Postgres.block s a none) w = (.ok e, w')) :
    e.scope = s ∧ e.args = a ∧ (s.texts ++ a.texts).all encodable = true ∧ a.writable = true ∧
      w.fault = none ∧ w' = w.upserted s a w.now := by
  unfold Postgres.block Postgres.expiry Postgres.wrap at h
  rw [exec_bind, exec_pure] at h
  replace h : exec backend (perform .now >>= fun now => _) w = (.ok e, w') := h
  rw [exec_bind, exec_perform] at h
  replace h : exec backend (Call.wrap _ _ (Call.wrap _ _
    (perform (.updateOrCreate s a none w.now))) >>= fun row => _) w = (.ok e, w') := h
  rw [exec_bind, exec_wrap, exec_wrap, exec_perform] at h
  rcases hu : backend _ (.updateOrCreate s a none w.now) w with ⟨r1, w1⟩
  rw [hu] at h
  cases r1 with
  | error x => cases (Prod.mk.inj h).1
  | ok row =>
    replace hu : (if a.writable = true then w.sendTable (s.texts ++ a.texts) fun w =>
        (.ok (w.table.upsert s a none w.now).1, { w with table := (w.table.upsert s a none w.now).2 })
      else (.error .jsonError, w)) = (.ok row, w1) := hu
    split at hu
    · rename_i ha
      obtain ⟨he, hf, hrun⟩ := sendTable_ok hu
      obtain ⟨hrow, rfl⟩ := Prod.mk.inj hrun
      obtain ⟨hr, rfl⟩ := Prod.mk.inj h
      obtain rfl := Except.ok.inj hr
      obtain rfl := Except.ok.inj hrow
      exact ⟨upsert_scope .., upsert_args .., he, ha, hf, rfl⟩
    · cases (Prod.mk.inj hu).1

theorem pg_unblock_ok {s : BlockScope} {reason revokedBy : Str} {w w' : World} {n : Int}
    (h : exec backend (Postgres.unblock s reason revokedBy) w = (.ok n, w')) :
    n = (w.table.revoke s reason revokedBy w.now).1 ∧ w.fault = none ∧
      w' = w.revoked s reason revokedBy w.now := by
  unfold Postgres.unblock Postgres.wrap at h
  rw [exec_bind, exec_perform] at h
  replace h : exec backend (Call.wrap _ _ (perform (.revoke s reason revokedBy w.now))) w
    = (.ok n, w') := h
  rw [exec_wrap, exec_perform] at h
  rcases hu : backend _ (.revoke s reason revokedBy w.now) w with ⟨r1, w1⟩
  rw [hu] at h
  cases r1 with
  | error x => cases (Prod.mk.inj h).1
  | ok k =>
    obtain ⟨he, hf, hrun⟩ := sendTable_ok hu
    obtain ⟨hk, rfl⟩ := Prod.mk.inj hrun
    obtain ⟨hn, rfl⟩ := Prod.mk.inj h
    obtain rfl := Except.ok.inj hk
    exact ⟨(Except.ok.inj hn).symm, hf, rfl⟩

/-- **a permanent block that returned**: the row is there; the cache entry and the removal of the
sentinel may each have been refused -/
theorem block_permanent_ok (hpg : st.pg = true) {s : BlockScope} {a : BlockArgs} {w w' : World}
    {e : BlockEntry} (h : exec backend (st.block b s a none) w = (.ok e, w')) :
    (s.texts ++ a.texts).all encodable = true ∧ a.writable = true ∧
      encodable st.redis.warmKey = true ∧ w.fault = none ∧
      ∃ w1 w2, w1 = w.upserted s a w.now ∧
      ((∃ v, encodable (st.redis.key s) = true ∧ 0 < st.permanentCacheTtl ∧ w1.fault = none ∧
          Written b s a v ∧ w2 = w1.stored (st.redis.key s) v st.permanentCacheTtl) ∨
        ((w1.fault ≠ none ∨ st.permanentCacheTtl ≤ 0) ∧ w2 = w1.sent)) ∧
      ((w2.fault = none ∧ w' = w2.dropped st.redis.warmKey) ∨
        (w2.fault ≠ none ∧ w' = w2.sent)) := by
  unfold TieredBlockStore.block at h
  simp only [hpg, if_true] at h
  rw [exec_bind] at h
  rcases h1 : exec backend (Postgres.block s a none) w with ⟨r1, w1⟩
  rw [h1] at h
  cases r1 with
  | error x => cases (Prod.mk.inj h).1
  | ok entry =>
    obtain ⟨rfl, rfl, hs, ha, hf, hw1⟩ := pg_block_ok h1
    replace h : exec backend (st.cachePermanent b entry >>= fun _ => _) w1 = (.ok e, w') := h
    rw [exec_bind] at h
    rcases h2 : exec backend (st.cachePermanent b entry) w1 with ⟨r2, w2⟩
    rw [h2] at h
    cases r2 with
    | error x => cases (Prod.mk.inj h).1
    | ok u =>
      replace h : exec backend (st.invalidateWarm >>= fun _ => _) w2 = (.ok e, w') := h
      rw [exec_bind] at h
      rcases h3 : exec backend st.invalidateWarm w2 with ⟨r3, w3⟩
      rw [h3] at h
      cases r3 with
      | error x => cases (Prod.mk.inj h).1
      | ok u' =>
        obtain ⟨-, rfl⟩ := Prod.mk.inj h
        rcases cachePermanent_cases h2 with ⟨-, hcache⟩ | ⟨x, hx, -⟩
        · rcases invalidateWarm_cases h3 with ⟨-, hk, hdel⟩ | ⟨x, hx, -⟩
          · exact ⟨hs, ha, hk, hf, w1, w2, hw1, hcache, hdel⟩
          · cases hx
        · cases hx

theorem redis_unblock_ok {s : BlockScope} {w w' : World} {n : Int}
    (h : exec backend (st.redis.unblock s) w = (.ok n, w')) :
    n = (if (w.read (st.redis.key s)).isSome then 1 else 0) ∧ w.fault = none ∧
      w' = w.dropped (st.redis.key s) := by
  unfold RedisBlockStore.unblock at h
  rw [exec_wrap, exec_perform] at h
  rcases hd : backend _ (.delete (st.redis.key s)) w with ⟨r1, w1⟩
  rw [hd] at h
  rcases delete_cases hd with ⟨rfl, -, hf, rfl⟩ | ⟨rfl, -⟩ | ⟨rfl, -⟩
  · exact ⟨(Except.ok.inj (Prod.mk.inj h).1).symm, hf, (Prod.mk.inj h).2.symm⟩
  · cases (Prod.mk.inj h).1
  · cases (Prod.mk.inj h).1

/-- **an unblock that returned** -/
theorem unblock_ok (hpg : st.pg = true) {s : BlockScope} {reason revokedBy : Str} {w w' : World}
    {n : Int} (h : exec backend (st.unblock s reason revokedBy) w = (.ok n, w')) :
    n = (if (w.read (st.redis.key s)).isSome then 1 else 0) +
        (w.table.revoke s reason revokedBy w.now).1 ∧
      ∃ w1 w2, w.fault = none ∧ w1 = w.dropped (st.redis.key s) ∧ w1.fault = none ∧
      w2 = w1.revoked s reason revokedBy w1.now ∧
      ((w2.fault = none ∧ w' = w2.dropped st.redis.warmKey) ∨
        (w2.fault ≠ none ∧ w' = w2.sent)) := by
  unfold TieredBlockStore.unblock at h
  rw [exec_bind] at h
  rcases h1 : exec backend (st.redis.unblock s) w with ⟨r1, w1⟩
  rw [h1] at h
  cases r1 with
  | error x => cases (Prod.mk.inj h).1
  | ok k =>
    obtain ⟨hk, hf, hw1⟩ := redis_unblock_ok h1
    simp only [hpg, if_true] at h
    rw [exec_bind] at h
    rcases h2 : exec backend (Postgres.unblock s reason revokedBy) w1 with ⟨r2, w2⟩
    rw [h2] at h
    cases r2 with
    | error x => cases (Prod.mk.inj h).1
    | ok k' =>
      obtain ⟨hk', hf1, hw2⟩ := pg_unblock_ok h2
      replace h : exec backend (st.invalidateWarm >>= fun _ => _) w2 = (.ok n, w') := h
      rw [exec_bind] at h
      rcases h3 : exec backend st.invalidateWarm w2 with ⟨r3, w3⟩
      rw [h3] at h
      cases r3 with
      | error x => cases (Prod.mk.inj h).1
      | ok u =>
        obtain ⟨hn, rfl⟩ := Prod.mk.inj h
        have hcount : n = k + k' := (Except.ok.inj hn).symm
        rw [hk, hk', hw1] at hcount
        refine ⟨hcount, w1, w2, hf, hw1, hf1, hw2, ?_⟩
        rcases invalidateWarm_cases h3 with ⟨-, -, hdel⟩ | ⟨x, hx, -⟩
        · exact hdel
        · cases hx

end

end SecAudit
