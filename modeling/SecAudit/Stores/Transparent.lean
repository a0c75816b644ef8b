import SecAudit.Stores.Alone

/-!
# What the client is told, with and without the cache

* `Told`            the part of an entry a deny response is made from;
* `cachedEntry`, `firstRow`, `warmedRow`  the three places an answer comes from: a live cache entry,
                    a row, the cache entry a re-warm makes of a row;
* `firstActive_told`  what `first_active` tells, when it runs alone within the limits;
* `CopyOf`, `Row.Plain`  the entry that answered is a copy of the row, and the row is read as its copy
                    is;
* `Unmoved`         what the rows and the keys that are left have to be;
* `cache_transparent`  both together, for every run.
-/

set_option linter.unusedVariables false
set_option linter.unusedSectionVars false

namespace SecAudit
open Py Prog

/-- what a deny response is made from -/
structure Told where
  scope : BlockScope
  statusCode : Int
  message : Str
  ruleName : Str
deriving DecidableEq

def BlockEntry.told (e : BlockEntry) : Told := ⟨e.scope, e.statusCode, e.message, e.ruleName⟩

/-- the same once written to the cache and read back: zero and the empty text become the defaults -/
def Told.reread (t : Told) : Told :=
  { t with
    statusCode := if t.statusCode = 0 then 429 else t.statusCode
    message := if t.message = [] then defaultBlockMessage else t.message }

section
variable (b : Builtins) (st : TieredBlockStore) (w : World)

/-- the entry under the key of `s` -/
def cachedEntry (s : BlockScope) : Option BlockEntry :=
  (w.read (st.redis.key s)).bind fun v => (entryFromJson b v).toOption

/-- the active row of `s` -/
def rowOf (s : BlockScope) : Option Row :=
  (w.table.active w.now).find? fun r => decide (r.scope = s)

def firstRow (ss : List BlockScope) : Option Row := ss.findSome? (rowOf w)

/-- the last row whose cache key is `k`: a re-warm leaves its entry there -/
def lastRow (rows : List Row) (k : Str) : Option Row :=
  rows.reverse.find? fun r => decide (st.redis.key r.scope = k)

def warmedRow (s : BlockScope) : Option Row :=
  lastRow st (w.table.active w.now) (st.redis.key s)

/-- the row the table answers with: the first of the scopes while a sentinel is there, else the one
whose entry a re-warm leaves under the first key that gets one -/
def answering (warm : Bool) (ss : List BlockScope) : Option Row :=
  if warm then firstRow w ss else ss.findSome? (warmedRow st w)

/-- what the table tells of the scopes: the row itself while a sentinel is there, else the entry a
re-warm caches -/
def tableTold (warm : Bool) (ss : List BlockScope) : Option Told :=
  if warm then (firstRow w ss).map fun r => r.entry.told
  else (ss.findSome? (warmedRow st w)).map fun r => r.entry.told.reread

def isWarm : Bool := (w.read st.redis.warmKey).isSome

/-- what `first_active` tells of the scopes -/
def told (ss : List BlockScope) : Option Told :=
  match ss.findSome? (cachedEntry b st w) with
  | some e => some e.told
  | none => tableTold st w (isWarm st w) ss

end

/-! ## entries read back -/

section
variable {b : Builtins}

theorem strOf_orElse_string (s d : Str) :
    strOf b (orElse b (some (.string s)) (.string d)) = if s = [] then d else s := by
  cases s <;> rfl

/-- what a payload written under `s` reads back as -/
theorem told_decoded {s : BlockScope} {a : BlockArgs} {v : Str} (hv : Written b s a v)
    (hs : s.encodable = true) :
    ∃ e, entryFromJson b v = .ok e ∧
      e.told = (Told.mk s a.statusCode (fuse a.message) (fuse a.ruleName)).reread := by
  obtain ⟨c, x, hp⟩ := hv
  obtain ⟨ht, hval⟩ := Bool.and_eq_true_iff.mp hs
  unfold entryToJson Json.dumps at hp
  split at hp
  · rename_i text htext
    obtain rfl := Except.ok.inj hp
    obtain ⟨hw, rfl⟩ := Option.ite_some_none_eq_some.mp htext
    unfold entryFromJson
    rw [loads_render valid_default hw]
    show ∃ e, entryOfJson b (entryJson b _).fuse = .ok e ∧ _
    rw [fuse_entryJson]
    unfold entryOfJson
    generalize hJ : Json.obj _ = J
    have h1 : item J (str "scope_type") = .ok (.string s.scopeType) := by
      rw [← hJ, ← fuse_of_encodable ht]
      rfl
    have h2 : item J (str "scope_value") = .ok (.string s.scopeValue) := by
      rw [← hJ, ← fuse_of_encodable hval]
      rfl
    have h3 : J.get (str "status_code") = some (.int a.statusCode) := by rw [← hJ]; rfl
    have h4 : J.get (str "message") = some (.string (fuse a.message)) := by rw [← hJ]; rfl
    have h5 : J.get (str "rule_name") = some (.string (fuse a.ruleName)) := by rw [← hJ]; rfl
    rw [h1, h2, h3, h4, h5, intOf_orElse_int, strOf_orElse_string, strOf_orElse_string]
    show ∃ e, (BlockScope.make s.scopeType s.scopeValue >>= _) = .ok e ∧ _
    rw [BlockScope.make_self]
    refine ⟨_, rfl, ?_⟩
    unfold BlockEntry.told Told.reread
    congr 1
    split
    · rename_i h
      exact h.symm
    · rfl
  · cases hp

theorem told_written {s : BlockScope} {a : BlockArgs} {v : Str} (hv : Written b s a v)
    (hs : (s.texts ++ a.texts).all encodable = true) :
    ∃ e, entryFromJson b v = .ok e ∧
      e.told = (Told.mk s a.statusCode a.message a.ruleName).reread := by
  obtain ⟨e, he, ht⟩ := told_decoded hv (encodable_of_texts hs)
  rw [List.all_append, Bool.and_eq_true] at hs
  unfold BlockArgs.texts at hs
  simp only [List.all_cons, List.all_nil, Bool.and_true, Bool.and_eq_true] at hs
  obtain ⟨-, -, hn, hm⟩ := hs
  rw [fuse_of_encodable hn, fuse_of_encodable hm] at ht
  exact ⟨e, he, ht⟩

/-- nothing changes when no default is needed -/
theorem Told.reread_eq_self {t : Told} : t.reread = t ↔ t.statusCode ≠ 0 ∧ t.message ≠ [] := by
  obtain ⟨s, c, m, n⟩ := t
  constructor
  · intro h
    obtain ⟨-, hc, hm, -⟩ := Told.mk.inj h
    refine ⟨?_, ?_⟩
    · rintro rfl
      exact absurd hc (show (429 : Int) ≠ 0 by decide)
    · rintro rfl
      exact absurd hm (show defaultBlockMessage ≠ [] by decide)
  · rintro ⟨hc, hm⟩
    unfold Told.reread
    dsimp only at hc hm ⊢
    rw [if_neg hc, if_neg hm]

theorem Told.reread_plain (t : Told) : t.reread.statusCode ≠ 0 ∧ t.reread.message ≠ [] := by
  unfold Told.reread
  dsimp only
  constructor
  · split
    · decide
    · assumption
  · split
    · decide
    · assumption

end

/-! ## reads of Redis -/

section
variable {b : Builtins} {st : TieredBlockStore} {N : BlockScope → Prop} {w : World}

theorem exec_wrap_ok {α : Type} {p : Call α} {a : α} {w' : World} {picked : Exc → Bool}
    {text : Str} (h : exec backend p w = (.ok a, w')) :
    exec backend (Call.wrap picked text p) w = (.ok a, w') := by
  rw [exec_wrap, h]

/-- the key of `s` is free, or holds an entry that decodes, under a scope with the same key -/
theorem Settled.cached (h : Settled b st N w) (s : BlockScope) :
    (w.read (st.redis.key s) = none ∧ cachedEntry b st w s = none) ∨
    ∃ v e, w.read (st.redis.key s) = some v ∧ v ≠ [] ∧ entryFromJson b v = .ok e ∧
      cachedEntry b st w s = some e ∧ st.redis.key e.scope = st.redis.key s := by
  unfold cachedEntry
  cases hr : w.read (st.redis.key s) with
  | none => exact .inl ⟨rfl, rfl⟩
  | some v =>
    obtain ⟨s', a, -, hk, henc, c, x, hp⟩ :=
      h.live _ v w.now (key_ne_warmKey st.redis s) (Int.le_refl _) hr
    obtain ⟨e, he, hs⟩ := entryFromJson_entryToJson b hp henc
    refine .inr ⟨v, e, rfl, entryToJson_ne_nil b hp, he, ?_, ?_⟩
    · show (entryFromJson b v).toOption = some e
      rw [he]
      rfl
    · rw [hs]
      exact hk.symm

theorem cached_isSome (h : Settled b st N w) (s : BlockScope) :
    (cachedEntry b st w s).isSome = (w.read (st.redis.key s)).isSome := by
  rcases h.cached s with ⟨hr, hc⟩ | ⟨v, e, hr, -, -, hc, -⟩
  · rw [hr, hc]
    rfl
  · rw [hr, hc]
    rfl

theorem decode_first (h : Settled b st N w) (ss : List BlockScope) :
    RedisBlockStore.decode b (((ss.map st.redis.key).map w.read).findSome? nonEmpty)
      = .done (.ok (ss.findSome? (cachedEntry b st w))) := by
  induction ss with
  | nil => rfl
  | cons s rest ih =>
    rw [List.map_cons, List.map_cons, List.findSome?_cons, List.findSome?_cons]
    rcases h.cached s with ⟨hr, hc⟩ | ⟨v, e, hr, hne, he, hc, -⟩
    · rw [hr, hc]
      exact ih
    · rw [hr, hc, nonEmpty_some hne]
      unfold RedisBlockStore.decode
      rw [nonEmpty_some hne]
      show (Prog.ofExcept (entryFromJson b v) >>= _) = _
      rw [he]
      rfl

theorem exec_redis_firstActive (h : Settled b st N w) {ss : List BlockScope}
    (hp : encodable st.redis.keyPrefix = true) (hs : ∀ s ∈ ss, s.encodable = true) :
    exec backend (st.redis.firstActive b ss) w = (.ok (ss.findSome? (cachedEntry b st w)), w) := by
  unfold RedisBlockStore.firstActive
  by_cases h0 : ss = []
  · rw [if_pos h0, h0]
    rfl
  · have hall : (ss.map st.redis.key).all encodable = true := by
      rw [List.all_eq_true]
      intro k hk
      obtain ⟨s, hm, rfl⟩ := List.mem_map.mp hk
      exact (encodable_key st.redis).mpr ⟨hp, hs s hm⟩
    have hget : backend _ (.mget (ss.map st.redis.key)) w
        = (.ok ((ss.map st.redis.key).map w.read), w) :=
      @send_quiet w h.quiet _ _ (fun _ => .redisError) _ hall
    rw [if_neg h0, exec_bind, exec_wrap, exec_perform, hget]
    show exec backend (RedisBlockStore.decode b _) w = _
    rw [decode_first h]
    rfl

/-- the sentinel as it is read, with the scopes it covers -/
theorem exec_readWarm (h : Settled b st N w) (hp : encodable st.redis.keyPrefix = true) :
    (isWarm st w = false ∧ exec backend st.redis.readWarm w = (.ok none, w)) ∨
    ∃ data, isWarm st w = true ∧ exec backend st.redis.readWarm w = (.ok (some data), w) ∧
      Covers b (· ∈ scopesOf w.table.rows) data := by
  have hk : [st.redis.warmKey].all encodable = true := by
    rw [List.all_cons, (encodable_warmKey st.redis).mpr hp]
    rfl
  have hget : backend _ (.get st.redis.warmKey) w = (.ok (w.read st.redis.warmKey), w) :=
    @send_quiet w h.quiet _ _ (fun _ => .redisError) _ hk
  have hraw : exec backend (Call.wrap isRedisError (str "Redis warm read failed.")
      (perform (.get st.redis.warmKey))) w = (.ok (w.read st.redis.warmKey), w) := by
    rw [exec_wrap, exec_perform, hget]
  unfold RedisBlockStore.readWarm
  rw [exec_bind_ok backend hraw]
  unfold isWarm
  cases hr : w.read st.redis.warmKey with
  | none => exact .inl ⟨rfl, rfl⟩
  | some text =>
    obtain ⟨data, hl, hc⟩ := h.warm text w.now (Int.le_refl _) hr
    refine .inr ⟨data, rfl, ?_, hc⟩
    dsimp only
    rw [hl]
    rfl

/-! ## cache writes -/

theorem exec_set (hq : w.faults = []) {k v : Str} {ex : Int} (hk : [k, v].all encodable = true)
    (hex : 0 < ex) : exec backend (perform (.set k v ex)) w = (.ok (), w.stored k v ex) := by
  unfold World.stored
  rw [quiet_sent hq]
  have hrun := @send_quiet w hq _ _ (fun _ => Exc.redisError) (fun w =>
    if 0 < ex then (.ok (), { w with redis := w.redis.put k v (w.now + seconds ex) })
    else (.error .redisError, w)) hk
  exact hrun.trans (if_pos hex)

/-- the cache entry of a row, within the limits -/
theorem exec_cacheEntry (h : Settled b st N w) (hw : Within st w) {r : Row} (hr : r.Sent) :
    ∃ v, Written b r.scope r.args v ∧ exec backend (st.cacheEntry b r.entry) w
      = (.ok (), w.stored (st.redis.key r.scope) v st.permanentCacheTtl) := by
  obtain ⟨x, hx⟩ := hw.clock
  obtain ⟨v, hv⟩ := entryToJson_of_writable b hr.2 r.scope (some w.now) (some x)
  refine ⟨v, ⟨_, _, hv⟩, ?_⟩
  have hk : [st.redis.key r.scope, v].all encodable = true := by
    rw [List.all_cons, List.all_cons, (encodable_key st.redis).mpr ⟨hw.keyPrefix, hr.encodable⟩,
      (printable_entryToJson b hv).encodable]
    rfl
  have hblock : exec backend (st.redis.block b r.scope r.args (some st.permanentCacheTtl)) w
      = (.ok (.make r.scope r.args (some w.now) (some x)),
        w.stored (st.redis.key r.scope) v st.permanentCacheTtl) := by
    unfold RedisBlockStore.block
    rw [exec_bind_ok _ (exec_perform _ _ _)]
    show exec backend (Prog.ofExcept (addSeconds w.now st.permanentCacheTtl) >>= _) w = _
    rw [hx, exec_bind_ok _ (exec_ofExcept _ _ _)]
    show exec backend (Prog.ofExcept (entryToJson b (.make r.scope r.args (some w.now) (some x)))
      >>= _) w = _
    rw [hv, exec_bind_ok _ (exec_ofExcept _ _ _)]
    exact exec_bind_ok _ (exec_wrap_ok (exec_set h.quiet hk hw.ttl))
  exact exec_bind_ok _ hblock

/-- the limits do not depend on what the cache holds -/
theorem Within.of_eq {w' : World} (hw : Within st w) (hn : w'.now = w.now)
    (ht : w'.table = w.table) : Within st w' :=
  ⟨⟨hn ▸ hw.clock, ht ▸ hw.rows⟩, hw.ttl, hw.keyPrefix⟩

/-- a key just stored is live -/
theorem read_stored (h : 0 < st.permanentCacheTtl) (w : World) (k k' v : Str) :
    (w.stored k v st.permanentCacheTtl).read k' = if k' = k then some v else w.read k' := by
  show (w.redis.put k v (w.now + seconds st.permanentCacheTtl)).get w.now k' = _
  by_cases hk : k' = k
  · subst hk
    rw [ExpMap.get_put_same, if_pos (by unfold seconds; omega), if_pos rfl]
  · rw [ExpMap.get_put_other _ _ _ _ hk, if_neg hk]
    rfl

theorem lastRow_cons (r : Row) (rows : List Row) (k : Str) :
    lastRow st (r :: rows) k
      = (lastRow st rows k).or (if st.redis.key r.scope = k then some r else none) := by
  unfold lastRow
  rw [List.reverse_cons, List.find?_append, List.find?_singleton]
  simp only [decide_eq_true_eq]

/-- after caching rows the key of each holds the entry of the last row with that key -/
theorem exec_cacheEach (h : Settled b st N w) (hw : Within st w) {rows : List Row}
    (hrows : ∀ r ∈ rows, r.Sent ∧ N r.scope) :
    ∃ w', exec backend (st.cacheEach b (rows.map Row.entry)) w = (.ok (), w') ∧
      Settled b st N w' ∧ w'.now = w.now ∧ w'.table = w.table ∧
      ∀ s, match lastRow st rows (st.redis.key s) with
        | some r => ∃ v, w'.read (st.redis.key s) = some v ∧ Written b r.scope r.args v
        | none => w'.read (st.redis.key s) = w.read (st.redis.key s) := by
  induction rows generalizing w with
  | nil => exact ⟨w, rfl, h, rfl, rfl, fun s => rfl⟩
  | cons r rest ih =>
    obtain ⟨hr, hN⟩ := hrows r List.mem_cons_self
    obtain ⟨v, hv, hx⟩ := exec_cacheEntry h hw hr
    have hk := (encodable_key st.redis).mpr ⟨hw.keyPrefix, hr.encodable⟩
    obtain ⟨w', hx', h', hn, ht, hread⟩ := @ih (w.stored (st.redis.key r.scope) v st.permanentCacheTtl)
      (h.stored hN hk hv) (hw.of_eq rfl rfl) fun r' hr' => hrows r' (List.mem_cons_of_mem _ hr')
    refine ⟨w', (exec_bind_ok _ hx).trans hx', h', hn, ht, fun s => ?_⟩
    have hs := hread s
    rw [lastRow_cons]
    cases hl : lastRow st rest (st.redis.key s) with
    | some r' =>
      rw [hl] at hs
      exact hs
    | none =>
      rw [hl] at hs
      dsimp only at hs
      rw [Option.none_or, hs, read_stored hw.ttl]
      by_cases hkey : st.redis.key r.scope = st.redis.key s
      · rw [if_pos hkey, if_pos hkey.symm]
        exact ⟨v, rfl, hv⟩
      · rw [if_neg hkey, if_neg (Ne.symm hkey)]

/-- **after a re-warm** the key of each scope holds the entry of the row under that key, if any -/
theorem exec_rewarm (h : Settled b st N w) (hw : Within st w) :
    ∃ w', exec backend (st.rewarm b) w = (.ok (), w') ∧ Settled b st N w' ∧
      ∀ s, match warmedRow st w s with
        | some r => ∃ v, w'.read (st.redis.key s) = some v ∧ Written b r.scope r.args v
        | none => w'.read (st.redis.key s) = w.read (st.redis.key s) := by
  obtain ⟨w1, hx, h1, hn, ht, hread⟩ := exec_cacheEach h hw fun r hr => h.active (t := w.now) hr
  have hlen : Countable ((w.table.active w.now).map Row.scope).length := by
    have := hw.rows
    rw [List.length_map]
    unfold Countable at this ⊢
    exact (List.length_filter_le _ _).trans_lt this
  obtain ⟨text, htext⟩ := dumpsWarm_sentinel hlen
  have hk : [st.redis.warmKey, text].all encodable = true := by
    rw [List.all_cons, List.all_cons, (encodable_warmKey st.redis).mpr hw.keyPrefix,
      (printable_dumpsWarm htext).encodable]
    rfl
  refine ⟨w1.stored st.redis.warmKey text st.permanentCacheTtl, ?_, ?_, fun s => ?_⟩
  · unfold TieredBlockStore.rewarm
    rw [exec_bind_ok _ (exec_activeBlocks h.quiet), exec_bind_ok _ hx, sentinel_entries]
    unfold RedisBlockStore.markWarm
    rw [htext, exec_bind_ok _ (exec_ofExcept _ _ _)]
    exact exec_wrap_ok (exec_set h1.quiet hk hw.ttl)
  · refine h1.warmed (covers_active h1 ?_)
    rw [hn, ht]
    exact htext
  · have := hread s
    unfold warmedRow
    rw [read_stored hw.ttl, if_neg (key_ne_warmKey st.redis s)]
    exact this

theorem findSome?_congr {α β γ : Type} {f : α → Option β} {f' : α → Option γ} {δ : Type}
    {g : β → δ} {g' : γ → δ} {l : List α} (h : ∀ x ∈ l, (f x).map g = (f' x).map g') :
    (l.findSome? f).map g = (l.findSome? f').map g' := by
  induction l with
  | nil => rfl
  | cons x l ih =>
    have hx := h x List.mem_cons_self
    rw [List.findSome?_cons, List.findSome?_cons]
    cases hf : f x with
    | none =>
      rw [hf] at hx
      rw [Option.map_eq_none_iff.mp hx.symm]
      exact ih fun y hy => h y (List.mem_cons_of_mem _ hy)
    | some y =>
      rw [hf] at hx
      obtain ⟨z, hz, hzy⟩ := Option.map_eq_some_iff.mp hx.symm
      rw [hz]
      exact hx.trans (by rw [hz])

/-- what is cached after a re-warm tells what the rows tell, read back -/
theorem told_rewarmed (h : Settled b st N w) {w' : World} (h' : Settled b st N w')
    {ss : List BlockScope} (hmiss : ∀ s ∈ ss, w.read (st.redis.key s) = none)
    (hread : ∀ s, match warmedRow st w s with
      | some r => ∃ v, w'.read (st.redis.key s) = some v ∧ Written b r.scope r.args v
      | none => w'.read (st.redis.key s) = w.read (st.redis.key s)) :
    (ss.findSome? (cachedEntry b st w')).map BlockEntry.told
      = (ss.findSome? (warmedRow st w)).map fun r => r.entry.told.reread := by
  refine findSome?_congr fun s hs => ?_
  have hr := hread s
  unfold cachedEntry
  cases hrow : warmedRow st w s with
  | none =>
    rw [hrow] at hr
    dsimp only at hr
    rw [hr, hmiss s hs]
    rfl
  | some r =>
    rw [hrow] at hr
    obtain ⟨v, hv, hwr⟩ := hr
    have hact : r ∈ w.table.active w.now := List.mem_reverse.mp (List.mem_of_find?_eq_some hrow)
    obtain ⟨e, he, htold⟩ := told_written hwr (h.active hact).1.1
    rw [hv]
    show ((entryFromJson b v).toOption).map _ = _
    rw [he]
    exact congrArg some htold

/-! ## asking Postgres -/

theorem exec_pg_getActive (h : Settled b st N w) {s : BlockScope} (hs : s.encodable = true) :
    exec backend (Postgres.getActive s) w = (.ok ((rowOf w s).map Row.entry), w) := by
  have hrow : backend _ (.activeRow s w.now) w = (.ok (rowOf w s), w) :=
    @send_quiet w h.quiet _ _ Fault.databaseExc _ (texts_encodable hs)
  unfold Postgres.getActive
  rw [exec_bind_ok _ (exec_perform _ _ _)]
  exact exec_bind_ok _ (exec_wrap_ok hrow)

/-- caching a row does not fail, within the limits -/
theorem exec_cachePermanent (h : Settled b st N w) (hw : Within st w) {r : Row} (hr : r.Sent) :
    ∃ w', exec backend (st.cachePermanent b r.entry) w = (.ok (), w') := by
  obtain ⟨v, -, hx⟩ := exec_cacheEntry h hw hr
  refine ⟨w.stored (st.redis.key r.scope) v st.permanentCacheTtl, ?_⟩
  unfold TieredBlockStore.cachePermanent TieredBlockStore.bestEffort
  rw [exec_catchWith, hx]

theorem rowOf_some {s : BlockScope} {r : Row} (hr : rowOf w s = some r) :
    r ∈ w.table.active w.now ∧ r.scope = s :=
  ⟨List.mem_of_find?_eq_some hr, by simpa using List.find?_some hr⟩

theorem rowOf_none (h : Settled b st N w) {s : BlockScope} (hs : s ∉ scopesOf w.table.rows) :
    rowOf w s = none := by
  cases hr : rowOf w s with
  | none => rfl
  | some r =>
    obtain ⟨hm, rfl⟩ := rowOf_some hr
    exact absurd ((Table.mem_scopesOf_active h.permanent).mpr ⟨r, hm, rfl⟩) hs

/-- every scope with a row is a member: the first row answers -/
theorem exec_verifyMembers (h : Settled b st N w) (hw : Within st w) {ms : List (Str × Str)}
    (hms : ∀ s ∈ scopesOf w.table.rows, s.pair ∈ ms) {ss : List BlockScope}
    (hs : ∀ s ∈ ss, s.encodable = true) :
    (exec backend (st.verifyMembers b ms ss) w).1 = .ok ((firstRow w ss).map Row.entry) := by
  induction ss with
  | nil => rfl
  | cons s rest ih =>
    have hrest := ih fun s' hs' => hs s' (List.mem_cons_of_mem _ hs')
    unfold firstRow at hrest ⊢
    rw [List.findSome?_cons]
    unfold TieredBlockStore.verifyMembers
    by_cases hp : s.pair ∈ ms
    · rw [if_pos hp, exec_bind_ok _ (exec_pg_getActive h (hs s List.mem_cons_self))]
      cases hr : rowOf w s with
      | none => exact hrest
      | some r =>
        obtain ⟨w', hx⟩ := exec_cachePermanent h hw (h.active (rowOf_some hr).1).1
        show (exec backend (st.cachePermanent b r.entry >>= _) w).1 = _
        rw [exec_bind_ok _ hx]
        rfl
    · rw [if_neg hp, rowOf_none h fun hm => hp (hms s hm)]
      exact hrest

/-- a scope has one active row -/
theorem active_unique (h : Settled b st N w) {r r' : Row} (hr : r ∈ w.table.active w.now)
    (hr' : r' ∈ w.table.active w.now) (hs : r.scope = r'.scope) : r = r' := by
  have he : w.table.active w.now = w.table.rows.filter Row.unrevoked := by
    refine List.filter_congr fun r hr => ?_
    unfold Row.activeAt
    rw [h.permanent r hr]
    exact Bool.and_true _
  have hnd : ((w.table.active w.now).map Row.scope).Nodup := by
    rw [he]
    exact w.table.unique
  exact List.inj_on_of_nodup_map hnd hr hr' hs

/-- at most one active row a scope: the first and the last are the same -/
theorem byKey_active (h : Settled b st N w) {ss : List BlockScope} {s : BlockScope} (hs : s ∈ ss) :
    Postgres.byKey ((w.table.active w.now).filter fun r => decide (r.scope ∈ ss)) s = rowOf w s := by
  cases hk : Postgres.byKey ((w.table.active w.now).filter fun r => decide (r.scope ∈ ss)) s with
  | some r =>
    obtain ⟨hm, hrs⟩ := byKey_some hk
    have hm := (List.mem_filter.mp hm).1
    have hsome : (rowOf w s).isSome = true := by
      unfold rowOf
      rw [List.find?_isSome]
      exact ⟨r, hm, by simpa using hrs⟩
    obtain ⟨r', hr'⟩ := Option.isSome_iff_exists.mp hsome
    obtain ⟨hm', hrs'⟩ := rowOf_some hr'
    rw [hr', active_unique h hm hm' (hrs.trans hrs'.symm)]
  | none =>
    cases hr : rowOf w s with
    | none => rfl
    | some r =>
      obtain ⟨hm, hrs⟩ := rowOf_some hr
      refine absurd hrs (byKey_none hk r (List.mem_filter.mpr ⟨hm, ?_⟩))
      rw [hrs]
      simpa using hs

theorem exec_pg_firstActive (h : Settled b st N w) {ss : List BlockScope}
    (hs : ∀ s ∈ ss, s.encodable = true) :
    exec backend (Postgres.firstActive ss) w = (.ok ((firstRow w ss).map Row.entry), w) := by
  unfold Postgres.firstActive
  by_cases h0 : ss = []
  · rw [if_pos h0, h0]
    rfl
  · have henc : (ss.flatMap BlockScope.texts).all encodable = true := by
      rw [List.all_eq_true]
      intro t ht
      obtain ⟨s, hm, hst⟩ := List.mem_flatMap.mp ht
      exact List.all_eq_true.mp (texts_encodable (hs s hm)) t hst
    have hrows : exec backend (perform (.activeRows ss w.now)) w
        = (.ok ((w.table.active w.now).filter fun r => decide (r.scope ∈ ss)), w) :=
      @send_quiet w h.quiet _ _ Fault.databaseExc _ henc
    have hkey := @findSome?_congr BlockScope Row Row
      (Postgres.byKey ((w.table.active w.now).filter fun r => decide (r.scope ∈ ss))) (rowOf w)
      Row id id ss fun s hm => congrArg (Option.map id) (byKey_active h hm)
    rw [Option.map_id] at hkey
    rw [if_neg h0, exec_bind_ok _ (exec_perform _ _ _)]
    refine (exec_bind_ok _ (exec_wrap_ok hrows)).trans ?_
    show exec backend (pure ((ss.findSome? (Postgres.byKey _)).map Row.entry)) w = _
    rw [show ss.findSome? _ = ss.findSome? (rowOf w) from hkey]
    rfl

/-- a scope of a type the sentinel does not list has no row -/
theorem firstRow_filter (h : Settled b st N w) {allowed : List Json}
    (hcov : ∀ s ∈ scopesOf w.table.rows, inSet s.scopeType allowed = true) (ss : List BlockScope) :
    firstRow w (ss.filter fun s => inSet s.scopeType allowed) = firstRow w ss := by
  unfold firstRow
  induction ss with
  | nil => rfl
  | cons s rest ih =>
    rw [List.findSome?_cons, List.filter_cons]
    by_cases hin : inSet s.scopeType allowed = true
    · rw [if_pos hin, List.findSome?_cons, ih]
    · rw [if_neg hin, rowOf_none h fun hm => hin (hcov s hm)]
      exact ih

theorem exec_verifyTypes (h : Settled b st N w) (hw : Within st w) {types : Option Json}
    {allowed : List Json} (ht : toSet b types = .ok allowed)
    (hcov : ∀ s ∈ scopesOf w.table.rows, inSet s.scopeType allowed = true) {ss : List BlockScope}
    (hs : ∀ s ∈ ss, s.encodable = true) :
    (exec backend (st.verifyTypes b types ss) w).1 = .ok ((firstRow w ss).map Row.entry) := by
  have hsub : ∀ s ∈ ss.filter (fun s => inSet s.scopeType allowed), s.encodable = true :=
    fun s hm => hs s (List.mem_filter.mp hm).1
  unfold TieredBlockStore.verifyTypes
  rw [ht, exec_bind_ok _ (exec_ofExcept _ _ _), ← firstRow_filter h hcov ss]
  dsimp only
  by_cases h0 : ss.filter (fun s => inSet s.scopeType allowed) = []
  · rw [if_pos h0, h0]
    rfl
  · rw [if_neg h0, exec_bind_ok _ (exec_pg_firstActive h hsub)]
    cases hr : firstRow w (ss.filter fun s => inSet s.scopeType allowed) with
    | none => rfl
    | some r =>
      obtain ⟨s, -, hrow⟩ := List.exists_of_findSome?_eq_some hr
      obtain ⟨w', hx⟩ := exec_cachePermanent h hw (h.active (rowOf_some hrow).1).1
      show (exec backend (st.cachePermanent b r.entry >>= _) w).1 = _
      rw [exec_bind_ok _ hx]
      rfl

/-! ## what `first_active` tells -/

/-- a miss is answered from the table -/
theorem answerWarmMiss_told (h : Settled b st N w) (hw : Within st w) {ss : List BlockScope}
    (hs : ∀ s ∈ ss, s.encodable = true) (hmiss : ∀ s ∈ ss, w.read (st.redis.key s) = none) :
    ∃ o, (exec backend (st.answerWarmMiss b ss) w).1 = .ok o ∧
      o.map BlockEntry.told = tableTold st w (isWarm st w) ss := by
  unfold TieredBlockStore.answerWarmMiss
  rcases exec_readWarm h hw.keyPrefix with ⟨hcold, hx⟩ | ⟨data, hwarm, hx, hcov⟩
  · obtain ⟨w', hre, h', hread⟩ := exec_rewarm h hw
    rw [exec_bind_ok _ hx, hcold]
    show ∃ o, (exec backend (st.rewarm b >>= fun _ => st.redis.firstActive b ss) w).1 = .ok o ∧ _
    rw [exec_bind_ok _ hre, exec_redis_firstActive h' hw.keyPrefix hs]
    exact ⟨_, rfl, told_rewarmed h h' hmiss hread⟩
  · have htold : ((firstRow w ss).map Row.entry).map BlockEntry.told
        = tableTold st w true ss := Option.map_map _ _ _
    rw [exec_bind_ok _ hx, hwarm]
    rcases hcov with ⟨ms, ⟨v, hv, hms⟩, hc⟩ | ⟨allowed, ⟨hno, htr, hty⟩, hc⟩
    · dsimp only
      rw [hv]
      dsimp only
      rw [hms, exec_bind_ok _ (exec_ofExcept _ _ _), exec_verifyMembers h hw hc hs]
      exact ⟨_, rfl, htold⟩
    · dsimp only
      rw [hno]
      dsimp only
      rw [if_pos htr, exec_verifyTypes h hw hty hc hs]
      exact ⟨_, rfl, htold⟩

/-- **what `first_active` tells, when it runs alone within the limits** -/
theorem firstActive_told (hpg : st.pg = true) (h : Settled b st N w) (hw : Within st w)
    {ss : List BlockScope} (hs : ∀ s ∈ ss, s.encodable = true) :
    ∃ o, (exec backend (st.firstActive b ss) w).1 = .ok o ∧
      o.map BlockEntry.told = told b st w ss := by
  unfold TieredBlockStore.firstActive told
  rw [exec_bind_ok _ (exec_redis_firstActive h hw.keyPrefix hs)]
  cases hhit : ss.findSome? (cachedEntry b st w) with
  | some e => exact ⟨some e, rfl, rfl⟩
  | none =>
    have hmiss : ∀ s ∈ ss, w.read (st.redis.key s) = none := by
      intro s hm
      rcases h.cached s with ⟨hr, -⟩ | ⟨v, e, -, -, -, hc, -⟩
      · exact hr
      · rw [List.findSome?_eq_none_iff.mp hhit s hm] at hc
        cases hc
    dsimp only
    by_cases h0 : ss = []
    · rw [if_pos (.inr h0), h0]
      refine ⟨none, rfl, ?_⟩
      unfold tableTold
      split <;> rfl
    · rw [if_neg (by simp [hpg, h0])]
      exact answerWarmMiss_told h hw hs hmiss

end

/-! ## eviction -/

section
variable (b : Builtins) (st : TieredBlockStore) (w : World)

/-- the row has a status and a message of its own: no default takes their place in the cache -/
def Row.Plain (r : Row) : Prop := r.args.statusCode ≠ 0 ∧ r.args.message ≠ []

instance (r : Row) : Decidable r.Plain := inferInstanceAs (Decidable (_ ∧ _))

/-- the entry is a cached copy of the row: nothing else has been written over it -/
structure CopyOf (e : BlockEntry) (r : Row) : Prop where
  scope : e.scope = r.scope
  statusCode : e.statusCode = if r.args.statusCode = 0 then 429 else r.args.statusCode
  message : e.message = if r.args.message = [] then defaultBlockMessage else r.args.message
  ruleName : e.ruleName = r.args.ruleName

theorem copyOf_iff {e : BlockEntry} {r : Row} : CopyOf e r ↔ r.entry.told.reread = e.told := by
  constructor
  · intro h
    show Told.mk _ _ _ _ = Told.mk _ _ _ _
    rw [h.scope, h.statusCode, h.message, h.ruleName]
    rfl
  · intro h
    obtain ⟨hs, hc, hm, hn⟩ := Told.mk.inj h
    exact ⟨hs.symm, hc.symm, hm.symm, hn.symm⟩

instance (e : BlockEntry) (r : Row) : Decidable (CopyOf e r) := decidable_of_iff _ copyOf_iff.symm

theorem plain_iff {r : Row} : r.Plain ↔ r.entry.told.reread = r.entry.told :=
  (@Told.reread_eq_self r.entry.told).symm

/-- the row still tells what the entry told: it is the row that answers, the entry is a copy of it,
and it is read as it is while `warm` says that a sentinel is there -/
def Stands (warm : Bool) (ss : List BlockScope) (e : BlockEntry) : Prop :=
  ∃ r ∈ answering st w warm ss, CopyOf e r ∧ (warm = true → r.Plain)

/-- evicting the keys `q` picks does not change what the client is told: the entry that answers
keeps its key; or no key of the scopes is left, and the row it was a copy of answers.  When no key
of the scopes was live before, all that can go is the sentinel: then the first row has to be the one
that a re-warm caches first, with a status and a message of its own. -/
def Unmoved (q : Str → Bool) (ss : List BlockScope) : Prop :=
  match ss.findSome? (cachedEntry b st w) with
  | some e => q (st.redis.key e.scope) = false ∨
    (∀ s ∈ ss, (w.read (st.redis.key s)).isSome = true → q (st.redis.key s) = true) ∧
      Stands st w (isWarm st w && !q st.redis.warmKey) ss e
  | none => isWarm st w = true → q st.redis.warmKey = true →
    (ss.findSome? (warmedRow st w)).map Row.scope = (firstRow w ss).map Row.scope ∧
      ∀ r ∈ firstRow w ss, r.Plain

instance (warm : Bool) (ss : List BlockScope) (e : BlockEntry) :
    Decidable (Stands st w warm ss e) :=
  match h : answering st w warm ss with
  | none => .isFalse fun ⟨r, hr, _⟩ => by
    rw [h] at hr
    cases hr
  | some r => decidable_of_iff (CopyOf e r ∧ (warm = true → r.Plain)) <| by
    unfold Stands
    rw [h]
    exact ⟨fun hc => ⟨r, rfl, hc⟩, fun ⟨r', hr, hc⟩ => by
      obtain rfl := Option.some.inj hr
      exact hc⟩

instance (q : Str → Bool) (ss : List BlockScope) : Decidable (Unmoved b st w q ss) := by
  unfold Unmoved
  split
  · infer_instance
  · infer_instance

/-- the two reads return, and tell the same -/
def SameTold (w w' : World) (ss : List BlockScope) : Prop :=
  ∃ o o', (exec backend (st.firstActive b ss) w).1 = .ok o ∧
    (exec backend (st.firstActive b ss) w').1 = .ok o' ∧
    o.map BlockEntry.told = o'.map BlockEntry.told

end

section
variable {b : Builtins} {st : TieredBlockStore} {N : BlockScope → Prop} {w : World} {q : Str → Bool}
  {ss : List BlockScope}

theorem cached_evicted (w : World) (q : Str → Bool) (s : BlockScope) :
    cachedEntry b st ((Env.evict q).apply w) s
      = if q (st.redis.key s) then none else cachedEntry b st w s := by
  unfold cachedEntry
  show ((w.redis.evict q).get w.now (st.redis.key s)).bind _ = _
  rw [ExpMap.get_evict]
  cases q (st.redis.key s) <;> rfl

theorem warm_evicted (w : World) (q : Str → Bool) :
    isWarm st ((Env.evict q).apply w) = (isWarm st w && !q st.redis.warmKey) := by
  unfold isWarm
  show ((w.redis.evict q).get w.now st.redis.warmKey).isSome = _
  rw [ExpMap.get_evict]
  cases hq : q st.redis.warmKey
  · exact (Bool.and_true _).symm
  · exact (Bool.and_false _).symm

/-- the key of the entry that answers -/
theorem hit_key (h : Settled b st N w) {e : BlockEntry} {s : BlockScope}
    (he : cachedEntry b st w s = some e) : st.redis.key e.scope = st.redis.key s := by
  rcases h.cached s with ⟨-, hc⟩ | ⟨v, e', -, -, -, hc, hk⟩
  · rw [hc] at he
    cases he
  · rw [hc] at he
    obtain rfl := Option.some.inj he
    exact hk

/-- the entry that answers keeps its key: it still answers -/
theorem told_kept {s : BlockScope} {e : BlockEntry} {pre post : List BlockScope}
    (hpre : ∀ s' ∈ pre, cachedEntry b st w s' = none) (he : cachedEntry b st w s = some e)
    (hq : q (st.redis.key s) = false) :
    (pre ++ s :: post).findSome? (cachedEntry b st ((Env.evict q).apply w)) = some e := by
  rw [List.findSome?_append, List.findSome?_cons, cached_evicted, hq]
  have hnone : pre.findSome? (cachedEntry b st ((Env.evict q).apply w)) = none := by
    refine List.findSome?_eq_none_iff.mpr fun s' hs' => ?_
    rw [cached_evicted, hpre s' hs']
    split <;> rfl
  rw [hnone, if_neg Bool.false_ne_true, he]
  rfl

/-- an entry that is read back has neither the status nor the message a default stands for -/
theorem cached_reread (h : Settled b st N w) {e : BlockEntry} {s : BlockScope}
    (he : cachedEntry b st w s = some e) : e.told.reread = e.told := by
  unfold cachedEntry at he
  obtain ⟨v, hv, he⟩ := Option.bind_eq_some_iff.mp he
  obtain ⟨s', a, -, -, henc, hw⟩ :=
    h.live _ v w.now (key_ne_warmKey st.redis s) (Int.le_refl _) hv
  obtain ⟨e', he', ht⟩ := told_decoded hw henc
  rw [he'] at he
  obtain rfl := Option.some.inj he
  rw [ht, Told.reread_eq_self]
  exact Told.reread_plain _

theorem tableTold_eq (warm : Bool) (ss : List BlockScope) : tableTold st w warm ss
    = (answering st w warm ss).map fun r => if warm then r.entry.told else r.entry.told.reread := by
  unfold tableTold answering
  cases warm <;> rfl

/-- what the table tells is what the entry told -/
theorem stands_iff (h : Settled b st N w) {e : BlockEntry} {s : BlockScope}
    (he : cachedEntry b st w s = some e) {warm : Bool} :
    tableTold st w warm ss = some e.told ↔ Stands st w warm ss e := by
  rw [tableTold_eq, Option.map_eq_some_iff]
  refine exists_congr fun r => and_congr_right fun _ => ?_
  rw [copyOf_iff]
  cases warm with
  | false => exact (and_iff_left fun h => by cases h).symm
  | true =>
    rw [plain_iff, if_pos rfl]
    constructor
    · intro hr
      have hre : r.entry.told.reread = e.told := by rw [hr, cached_reread h he]
      exact ⟨hre, fun _ => hre.trans hr.symm⟩
    · rintro ⟨hr, hp⟩
      exact (hp rfl).symm.trans hr

theorem answering_active {warm : Bool} {r : Row} (hr : answering st w warm ss = some r) :
    r ∈ w.table.active w.now := by
  unfold answering at hr
  split at hr
  · obtain ⟨s, -, hrow⟩ := List.exists_of_findSome?_eq_some hr
    exact (rowOf_some hrow).1
  · obtain ⟨s, -, hrow⟩ := List.exists_of_findSome?_eq_some hr
    exact List.mem_reverse.mp (List.mem_of_find?_eq_some hrow)

/-- the table tells the same with the sentinel and without it -/
theorem tableTold_same (h : Settled b st N w) :
    tableTold st w true ss = tableTold st w false ss ↔
      (ss.findSome? (warmedRow st w)).map Row.scope = (firstRow w ss).map Row.scope ∧
        ∀ r ∈ firstRow w ss, r.Plain := by
  rw [tableTold_eq, tableTold_eq]
  show (firstRow w ss).map _ = (ss.findSome? (warmedRow st w)).map _ ↔ _
  rcases hf : firstRow w ss with _ | r <;> rcases hc : ss.findSome? (warmedRow st w) with _ | r'
  · exact iff_of_true rfl ⟨rfl, fun r hr => by cases hr⟩
  · exact iff_of_false nofun fun hn => by cases hn.1
  · exact iff_of_false nofun fun hn => by cases hn.1
  · have hrow : ∀ warm r₁, answering st w warm ss = some r₁ → r₁ ∈ w.table.active w.now :=
      fun warm r₁ => answering_active
    have hsame := active_unique h (hrow true r hf) (hrow false r' hc)
    constructor
    · intro heq
      have heq : r.entry.told = r'.entry.told.reread := Option.some.inj heq
      obtain rfl := hsame (congrArg Told.scope heq)
      refine ⟨rfl, fun r₁ hr₁ => ?_⟩
      obtain rfl := Option.some.inj hr₁
      exact plain_iff.mpr heq.symm
    · rintro ⟨heq, hp⟩
      obtain rfl := hsame (Option.some.inj heq).symm
      exact congrArg some (plain_iff.mp (hp r rfl)).symm

/-- **what is told stays the same exactly when the eviction leaves it unmoved** -/
theorem told_evicted (h : Settled b st N w) :
    told b st w ss = told b st ((Env.evict q).apply w) ss ↔ Unmoved b st w q ss := by
  have htable : ∀ warm, tableTold st ((Env.evict q).apply w) warm ss = tableTold st w warm ss :=
    fun warm => rfl
  unfold told Unmoved
  rw [htable, warm_evicted]
  cases hhit : ss.findSome? (cachedEntry b st w) with
  | none =>
    have hnone : ss.findSome? (cachedEntry b st ((Env.evict q).apply w)) = none := by
      refine List.findSome?_eq_none_iff.mpr fun s hs => ?_
      rw [cached_evicted, List.findSome?_eq_none_iff.mp hhit s hs]
      split <;> rfl
    rw [hnone]
    dsimp only
    cases hwarm : isWarm st w <;> cases hq : q st.redis.warmKey
    · exact iff_of_true rfl nofun
    · exact iff_of_true rfl nofun
    · exact iff_of_true rfl fun _ => nofun
    · exact (tableTold_same h).trans ⟨fun hs _ _ => hs, fun hs => hs rfl rfl⟩
  | some e =>
    dsimp only
    obtain ⟨pre, s, post, rfl, he, hpre⟩ := List.findSome?_eq_some_iff.mp hhit
    rw [hit_key h he]
    cases hq : q (st.redis.key s) with
    | false =>
      rw [told_kept hpre he hq]
      exact iff_of_true rfl (.inl rfl)
    | true =>
      simp only [Bool.true_eq_false, false_or]
      cases hhit' : (pre ++ s :: post).findSome? (cachedEntry b st ((Env.evict q).apply w)) with
      | some e' =>
        obtain ⟨s', hs', he'⟩ := List.exists_of_findSome?_eq_some hhit'
        rw [cached_evicted] at he'
        cases hq' : q (st.redis.key s') with
        | true =>
          rw [hq'] at he'
          cases he'
        | false =>
          rw [hq'] at he'
          replace he' : cachedEntry b st w s' = some e' := he'
          -- another scope answers: its key is kept, so it is not the one that was lost
          refine iff_of_false (fun heq => ?_) fun hall => ?_
          · have hscope : e.scope = e'.scope := congrArg Told.scope (Option.some.inj heq)
            rw [← hit_key h he', ← hscope, hit_key h he, hq] at hq'
            cases hq'
          · have hlive := cached_isSome h s'
            rw [he'] at hlive
            have := hall.1 s' hs' hlive.symm
            rw [hq'] at this
            cases this
      | none =>
        have hall : ∀ s' ∈ pre ++ s :: post, (w.read (st.redis.key s')).isSome = true →
            q (st.redis.key s') = true := by
          intro s' hs' hlive
          have hnone := List.findSome?_eq_none_iff.mp hhit' s' hs'
          rw [cached_evicted] at hnone
          by_contra hq'
          rw [if_neg hq'] at hnone
          rw [← cached_isSome h, hnone] at hlive
          cases hlive
        rw [eq_comm, and_iff_right hall]
        exact stands_iff h he

end

/-- **When eviction does not change the deny decision.**  In every state that complete calls, time
and evictions lead to from empty backends, with no limit near: a read of the scopes tells the same
before and after the keys `q` picks are evicted, if and only if `Unmoved`. -/
theorem cache_transparent (b : Builtins) (st : TieredBlockStore) (hpg : st.pg = true) (t : Int)
    (steps : List Step) (w : World) (hrun : runAlone b st (World.empty t) steps = some w)
    (hw : Within st w) (q : Str → Bool) (ss : List BlockScope)
    (hs : ∀ s ∈ ss, s.encodable = true) :
    SameTold b st w ((Env.evict q).apply w) ss ↔ Unmoved b st w q ss := by
  have h := settled_run (N := fun _ => True) hpg (settled_empty b st _ t) (fun _ _ _ _ => trivial) hrun
  obtain ⟨o, ho, hto⟩ := firstActive_told hpg h hw hs
  obtain ⟨o', ho', hto'⟩ := firstActive_told hpg (h.env (.evict q))
    (hw.of_eq rfl rfl : Within st ((Env.evict q).apply w)) hs
  rw [← told_evicted h, ← hto, ← hto']
  constructor
  · rintro ⟨u, u', hu, hu', heq⟩
    rw [Except.ok.inj (ho.symm.trans hu), Except.ok.inj (ho'.symm.trans hu')]
    exact heq
  · intro heq
    exact ⟨o, o', ho, ho', heq⟩

/-- the key of the sample scope -/
def sampleKey (k : Str) : Bool := decide (k = TieredBlockStore.sample.redis.key .sample)

/-- that and the key of the address -/
def sampleKeys (k : Str) : Bool :=
  sampleKey k || decide (k = TieredBlockStore.sample.redis.key .sampleIp)

/-- a user whose status code is his own and an address are banned, a read of another address has
written the sentinel, and the keys of both bans are evicted -/
def bothBanned : List Step :=
  [.call (.block .sample { statusCode := 403 } none), .call (.block .sampleIp {} none),
    .call (.firstActive [.sampleClient])]

theorem cache_transparent_both : ∃ w,
    runAlone .sample .sample (World.empty 0) bothBanned = some w ∧
      isWarm .sample w = true ∧
      SameTold .sample .sample w ((Env.evict sampleKeys).apply w) [.sample, .sampleIp] := by
  have h : ((runAlone .sample .sample (World.empty 0) bothBanned).any fun w =>
      decide (w.now = 0) && decide (w.table.rows.length = 2) && isWarm .sample w &&
        decide (Unmoved .sample .sample w sampleKeys [.sample, .sampleIp])) = true := by
    decide +kernel
  obtain ⟨w, hrun, h⟩ := (Option.any_eq_true _ _).mp h
  simp only [Bool.and_eq_true, decide_eq_true_eq] at h
  obtain ⟨⟨⟨hnow, hrows⟩, hwarm⟩, hun⟩ := h
  have hw : Within .sample w := by
    refine ⟨⟨⟨3600000, ?_⟩, ?_⟩, by decide, by decide⟩
    · rw [hnow]
      rfl
    · rw [hrows]
      decide +kernel
  exact ⟨w, hrun, hwarm, (cache_transparent .sample .sample rfl 0 _ w hrun hw sampleKeys
    [.sample, .sampleIp] (by decide)).mpr hun⟩

/-- **eviction changes which scope wins**: a ban of the user, a temporary block of the address, and
the key of the ban evicted -/
theorem precedence_lost : ∃ w, runAlone .sample .sample (World.empty 0)
      [.call (.block .sample {} none), .call (.block .sampleIp {} (some 60))] = some w ∧
    ¬ SameTold .sample .sample w ((Env.evict sampleKey).apply w) [.sample, .sampleIp] := by
  have h : ((runAlone .sample .sample (World.empty 0)
      [.call (.block .sample {} none), .call (.block .sampleIp {} (some 60))]).any fun w =>
        !decide ((exec backend (TieredBlockStore.sample.firstActive .sample [.sample, .sampleIp])
            w).1.toOption.map (Option.map BlockEntry.told)
          = (exec backend (TieredBlockStore.sample.firstActive .sample [.sample, .sampleIp])
            ((Env.evict sampleKey).apply w)).1.toOption.map (Option.map BlockEntry.told))) = true := by
    decide +kernel
  obtain ⟨w, hrun, h⟩ := (Option.any_eq_true _ _).mp h
  refine ⟨w, hrun, ?_⟩
  rintro ⟨o, o', ho, ho', heq⟩
  rw [ho, ho', Bool.not_eq_true', decide_eq_false_iff_not] at h
  exact h (congrArg some heq)

end SecAudit
