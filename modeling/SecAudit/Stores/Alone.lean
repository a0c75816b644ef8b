import SecAudit.Stores.Refine

/-!
# Calls that run alone while no backend fails

* `Settled`         what is in the backends then: rows and payloads that were sent, a sentinel that
                    covers every row;
* `settled_run`     every run keeps it;
* `Leaves`          so does every call the store is made of.
-/

set_option linter.unusedVariables false
set_option linter.unusedSectionVars false

namespace SecAudit
open Py Prog

/-- a row whose texts and numbers a command has carried -/
def Row.Sent (r : Row) : Prop :=
  (r.scope.texts ++ r.args.texts).all encodable = true ∧ r.args.writable = true

theorem Row.Sent.encodable {r : Row} (h : r.Sent) : r.scope.encodable = true :=
  encodable_of_texts h.1

/-- `N` holds of every scope that has been blocked -/
structure Settled (b : Builtins) (st : TieredBlockStore) (N : BlockScope → Prop) (w : World) :
    Prop where
  quiet : w.faults = []
  permanent : w.table.Permanent
  rows : ∀ r ∈ w.table.rows, r.Sent ∧ N r.scope
  /-- a live key is that of a scope some `block` wrote there -/
  live : ∀ k v t, k ≠ st.redis.warmKey → w.now ≤ t → w.redis.get t k = some v →
    ∃ s a, N s ∧ k = st.redis.key s ∧ s.encodable = true ∧ Written b s a v
  warm : ∀ text t, w.now ≤ t → w.redis.get t st.redis.warmKey = some text →
    CoversText b (· ∈ scopesOf w.table.rows) text

section
variable {b : Builtins} {st : TieredBlockStore} {N : BlockScope → Prop} {w : World}

theorem settled_empty (b : Builtins) (st : TieredBlockStore) (N : BlockScope → Prop) (t : Int) :
    Settled b st N (World.empty t) where
  quiet := rfl
  permanent := fun r hr => absurd hr List.not_mem_nil
  rows := fun r hr => absurd hr List.not_mem_nil
  live := fun k v t _ _ h => by cases h
  warm := fun text t _ h => by cases h

/-! ## no failure to come -/

theorem quiet_fault (hq : w.faults = []) : w.fault = none := by
  unfold World.fault
  rw [hq]
  rfl

theorem quiet_sent (hq : w.faults = []) : w.sent = w := by
  obtain ⟨n, r, t, f⟩ := w
  obtain rfl : f = [] := hq
  rfl

theorem quiet_tail (hq : w.faults = []) : w.faults.tail = [] := by
  rw [hq]
  rfl

/-- a command that can be sent is carried out -/
theorem send_quiet (hq : w.faults = []) {β : Type} {texts : List Str} {exc : Fault → Exc}
    {run : World → Except Exc β × World} (he : texts.all encodable = true) :
    w.send texts exc run = run w := by
  unfold World.send
  rw [if_pos he]
  simp only [quiet_fault hq, quiet_sent hq]

/-- a command that returned was carried out -/
theorem send_quiet_ok (hq : w.faults = []) {β : Type} {texts : List Str} {exc : Fault → Exc}
    {run : World → Except Exc β × World} {r : β} {w' : World}
    (h : w.send texts exc run = (.ok r, w')) : run w = (.ok r, w') := by
  by_cases he : texts.all encodable = true
  · rwa [send_quiet hq he] at h
  · unfold World.send at h
    rw [if_neg he] at h
    cases (Prod.mk.inj h).1

/-! ## changes that keep the backends settled -/

theorem Settled.env (h : Settled b st N w) (x : Env) : Settled b st N (x.apply w) := by
  cases x with
  | advance d =>
    refine ⟨h.quiet, h.permanent, h.rows, fun k v t hk ht hg => ?_, fun text t ht hg => ?_⟩
    · have ht' : w.now + d ≤ t := ht
      exact h.live k v t hk (by omega) hg
    · have ht' : w.now + d ≤ t := ht
      exact h.warm text t (by omega) hg
  | evict q =>
    refine ⟨h.quiet, h.permanent, h.rows, fun k v t hk ht hg => ?_, fun text t ht hg => ?_⟩
    · replace hg : (w.redis.evict q).get t k = some v := hg
      rw [ExpMap.get_evict] at hg
      split at hg
      · cases hg
      · exact h.live k v t hk ht hg
    · replace hg : (w.redis.evict q).get t st.redis.warmKey = some text := hg
      rw [ExpMap.get_evict] at hg
      split at hg
      · cases hg
      · exact h.warm text t ht hg

theorem Settled.stored (h : Settled b st N w) {s : BlockScope} {a : BlockArgs} {v : Str} {ex : Int}
    (hs : N s) (hk : encodable (st.redis.key s) = true) (hv : Written b s a v) :
    Settled b st N (w.stored (st.redis.key s) v ex) where
  quiet := quiet_tail h.quiet
  permanent := h.permanent
  rows := h.rows
  live := by
    intro k v' t hne ht hg
    replace hg : (w.redis.put (st.redis.key s) v _).get t k = some v' := hg
    by_cases e : k = st.redis.key s
    · subst e
      rw [ExpMap.get_put_same] at hg
      split at hg
      · obtain rfl := Option.some.inj hg
        exact ⟨s, a, hs, rfl, ((encodable_key st.redis).mp hk).2, hv⟩
      · cases hg
    · rw [ExpMap.get_put_other _ _ _ _ e] at hg
      exact h.live k v' t hne ht hg
  warm := by
    intro text t ht hg
    replace hg : (w.redis.put (st.redis.key s) v _).get t st.redis.warmKey = some text := hg
    rw [ExpMap.get_put_other _ _ _ _ (key_ne_warmKey st.redis s).symm] at hg
    exact h.warm text t ht hg

theorem Settled.warmed (h : Settled b st N w) {v : Str} {ex : Int}
    (hc : CoversText b (· ∈ scopesOf w.table.rows) v) :
    Settled b st N (w.stored st.redis.warmKey v ex) where
  quiet := quiet_tail h.quiet
  permanent := h.permanent
  rows := h.rows
  live := by
    intro k v' t hne ht hg
    replace hg : (w.redis.put st.redis.warmKey v _).get t k = some v' := hg
    rw [ExpMap.get_put_other _ _ _ _ hne] at hg
    exact h.live k v' t hne ht hg
  warm := by
    intro text t ht hg
    replace hg : (w.redis.put st.redis.warmKey v _).get t st.redis.warmKey = some text := hg
    rw [ExpMap.get_put_same] at hg
    split at hg
    · obtain rfl := Option.some.inj hg
      exact hc
    · cases hg

theorem Settled.dropped (h : Settled b st N w) (k : Str) : Settled b st N (w.dropped k) := by
  have sub : ∀ {t : Int} {k' v : Str}, (w.redis.drop k).get t k' = some v →
      w.redis.get t k' = some v := by
    intro t k' v hg
    by_cases e : k' = k
    · rw [e, ExpMap.get_drop_same] at hg
      cases hg
    · rwa [ExpMap.get_drop_other _ _ e] at hg
  exact ⟨quiet_tail h.quiet, h.permanent, h.rows, fun k' v t hk ht hg => h.live k' v t hk ht (sub hg),
    fun text t ht hg => h.warm text t ht (sub hg)⟩

/-- a row more, once no sentinel is left -/
theorem Settled.ban (h : Settled b st N w) {s : BlockScope} {a : BlockArgs} {now : Int}
    (hs : N s) (he : (s.texts ++ a.texts).all encodable = true) (ha : a.writable = true) :
    Settled b st N ((w.upserted s a now).dropped st.redis.warmKey) where
  quiet := quiet_tail (quiet_tail h.quiet)
  permanent := h.permanent.upsert s a now
  rows := by
    intro r hr
    rcases Table.mem_upsert hr with hr | ⟨hrs, -, hra⟩
    · exact h.rows r hr
    · unfold Row.Sent
      rw [hrs, hra]
      exact ⟨⟨he, ha⟩, hs⟩
  live := by
    intro k v t hk ht hg
    replace hg : (w.redis.drop st.redis.warmKey).get t k = some v := hg
    rw [ExpMap.get_drop_other _ _ hk] at hg
    exact h.live k v t hk ht hg
  warm := by
    intro text t ht hg
    replace hg : (w.redis.drop st.redis.warmKey).get t st.redis.warmKey = some text := hg
    rw [ExpMap.get_drop_same] at hg
    cases hg

/-- a row revoked: the sentinel may name too many scopes -/
theorem Settled.revoked (h : Settled b st N w) (s : BlockScope) (reason revokedBy : Str) (now : Int) :
    Settled b st N (w.revoked s reason revokedBy now) where
  quiet := quiet_tail h.quiet
  permanent := h.permanent.revoke s reason revokedBy now
  rows := by
    intro r hr
    obtain ⟨r', hr', rfl⟩ := List.mem_map.mp hr
    show Row.Sent (if r'.blocks s = true then _ else r') ∧ N (ite _ _ _ : Row).scope
    split <;> exact h.rows r' hr'
  live := h.live
  warm text t ht hg := (h.warm text t ht hg).mono b fun s' hs' =>
    (Table.mem_scopesOf_revoke.mp hs').2

/-! ## reads -/

/-- whatever the program returns or raises, the backends stay settled, at the same time and with
the same rows; what it returns meets `Q` -/
def Preserves (b : Builtins) (st : TieredBlockStore) (N : BlockScope → Prop) {α : Type}
    (p : Call α) (Q : α → Prop) : Prop :=
  ∀ w, Settled b st N w → (Settled b st N (exec backend p w).2 ∧
    (exec backend p w).2.now = w.now ∧ (exec backend p w).2.table = w.table) ∧
    ∀ a, (exec backend p w).1 = .ok a → Q a

/-- the same, of a program whose result does not matter -/
abbrev Leaves (b : Builtins) (st : TieredBlockStore) (N : BlockScope → Prop) {α : Type}
    (p : Call α) : Prop := Preserves b st N p fun _ => True

theorem leaves_done {α : Type} (r : Except Exc α) : Leaves b st N (.done r) :=
  fun w h => ⟨⟨h, rfl, rfl⟩, fun _ _ => trivial⟩

theorem preserves_bind {α β : Type} {p : Call α} {f : α → Call β} {P : α → Prop} {Q : β → Prop}
    (hp : Preserves b st N p P) (hf : ∀ a, P a → Preserves b st N (f a) Q) :
    Preserves b st N (p >>= f) Q := by
  intro w h
  rw [exec_bind]
  have h1 := hp w h
  rcases hx : exec backend p w with ⟨r, w1⟩
  rw [hx] at h1
  cases r with
  | error e => exact ⟨h1.1, nofun⟩
  | ok a =>
    obtain ⟨⟨h2, hn, ht⟩, hQ⟩ := hf a (h1.2 a rfl) w1 h1.1.1
    exact ⟨⟨h2, hn.trans h1.1.2.1, ht.trans h1.1.2.2⟩, hQ⟩

theorem preserves_catchWith {α : Type} {p : Call α} {f : Exc → Call α} {Q : α → Prop}
    (hp : Preserves b st N p Q) (hf : ∀ e, Preserves b st N (f e) Q) :
    Preserves b st N (p.catchWith f) Q := by
  intro w h
  rw [exec_catchWith]
  have h1 := hp w h
  rcases hx : exec backend p w with ⟨r, w1⟩
  rw [hx] at h1
  cases r with
  | ok a => exact h1
  | error e =>
    obtain ⟨⟨h2, hn, ht⟩, hQ⟩ := hf e w1 h1.1.1
    exact ⟨⟨h2, hn.trans h1.1.2.1, ht.trans h1.1.2.2⟩, hQ⟩

theorem preserves_wrap {α : Type} {p : Call α} {Q : α → Prop} (hp : Preserves b st N p Q)
    (picked : Exc → Bool) (text : Str) : Preserves b st N (Call.wrap picked text p) Q := by
  refine preserves_catchWith hp fun e => ?_
  split
  · exact fun w h => ⟨⟨h, rfl, rfl⟩, nofun⟩
  · exact fun w h => ⟨⟨h, rfl, rfl⟩, nofun⟩

/-- a command that only reads -/
theorem preserves_send {β : Type} {c : Cmd β} {texts : List Str} {exc : Fault → Exc}
    {f : World → β} {Q : β → Prop} (hc : ∀ w, backend _ c w = w.send texts exc fun w => (.ok (f w), w))
    (hQ : ∀ w, Settled b st N w → Q (f w)) : Preserves b st N (perform c) Q := by
  intro w h
  rw [exec_perform, hc]
  have hw : (w.send texts exc fun w => (.ok (f w), w)).2 = w := by
    rcases @send_world _ w texts exc (fun w => (.ok (f w), w)) with e | e | ⟨-, -, e⟩
    · exact e
    · rw [e, quiet_sent h.quiet]
    · rw [e, quiet_sent h.quiet]
  rw [hw]
  refine ⟨⟨h, rfl, rfl⟩, fun a ha => ?_⟩
  have := Except.ok.inj (send_ok ha)
  rw [← this, quiet_sent h.quiet]
  exact hQ w h

theorem leaves_now : Leaves b st N (perform .now) :=
  fun w h => ⟨⟨h, rfl, rfl⟩, fun _ _ => trivial⟩

theorem leaves_get (k : Str) : Leaves b st N (perform (.get k)) :=
  preserves_send (f := fun w => w.read k) (fun w => rfl) fun _ _ => trivial

theorem leaves_decode (v : Option Str) : Leaves b st N (RedisBlockStore.decode b v) := by
  unfold RedisBlockStore.decode
  split
  · exact preserves_bind (leaves_done _) fun e _ => leaves_done _
  · exact leaves_done _

theorem leaves_redis_getActive (s : BlockScope) : Leaves b st N (st.redis.getActive b s) :=
  preserves_bind (preserves_wrap (leaves_get _) _ _) fun v _ => leaves_decode v

theorem leaves_redis_firstActive (ss : List BlockScope) :
    Leaves b st N (st.redis.firstActive b ss) := by
  unfold RedisBlockStore.firstActive
  split
  · exact leaves_done _
  · refine preserves_bind (P := fun _ => True) (preserves_wrap ?_ _ _) fun vs _ => leaves_decode _
    exact preserves_send (f := fun w => (ss.map st.redis.key).map w.read) (fun w => rfl)
      fun _ _ => trivial

theorem leaves_cacheEntry {entry : BlockEntry} (hs : N entry.scope) :
    Leaves b st N (st.cacheEntry b entry) := by
  refine preserves_bind (P := fun _ => True) (fun w h => ⟨?_, fun _ _ => trivial⟩)
    fun e _ => leaves_done _
  rcases hx : exec backend (st.redis.block b entry.scope entry.args (some st.permanentCacheTtl)) w
    with ⟨r, w'⟩
  rcases redis_block_cases hx with ⟨e, v, -, -, hk, -, -, hv, rfl⟩ | ⟨x, -, -, -, rfl⟩ |
    ⟨x, -, -, rfl⟩
  · exact ⟨h.stored hs hk hv, rfl, rfl⟩
  · rw [quiet_sent h.quiet]
    exact ⟨h, rfl, rfl⟩
  · exact ⟨h, rfl, rfl⟩

theorem leaves_cachePermanent {entry : BlockEntry} (hs : N entry.scope) :
    Leaves b st N (st.cachePermanent b entry) := by
  refine preserves_catchWith (leaves_cacheEntry hs) fun e => ?_
  split
  · exact leaves_done _
  · exact leaves_done _

theorem leaves_cacheEach {entries : List BlockEntry} (hs : ∀ e ∈ entries, N e.scope) :
    Leaves b st N (st.cacheEach b entries) := by
  induction entries with
  | nil => exact leaves_done _
  | cons e rest ih =>
    exact preserves_bind (leaves_cacheEntry (hs e List.mem_cons_self))
      fun _ _ => ih fun e' he' => hs e' (List.mem_cons_of_mem _ he')

theorem Settled.active (h : Settled b st N w) {t : Int} {r : Row} (hr : r ∈ w.table.active t) :
    r.Sent ∧ N r.scope := h.rows r ((Table.mem_active h.permanent).mp hr).1

theorem exec_activeBlocks (hq : w.faults = []) :
    exec backend Postgres.activeBlocks w = (.ok ((w.table.active w.now).map Row.entry), w) := by
  have hx : backend _ (.allActive w.now) w = (.ok (w.table.active w.now), w) :=
    @send_quiet w hq _ [] Fault.databaseExc _ rfl
  unfold Postgres.activeBlocks Postgres.wrap
  rw [exec_bind_ok _ (exec_perform _ _ _), exec_bind, exec_wrap, exec_perform, hx]
  rfl

/-- the sentinel a re-warm writes covers every row -/
theorem covers_active (h : Settled b st N w) {text : Str}
    (ht : RedisBlockStore.dumpsWarm (sentinel ((w.table.active w.now).map Row.scope)) = .ok text) :
    CoversText b (· ∈ scopesOf w.table.rows) text := by
  refine covers_sentinel b ht fun s hs => ?_
  obtain ⟨r, hr, rfl⟩ := (Table.mem_scopesOf_active h.permanent).mp hs
  exact ⟨List.mem_map_of_mem hr, (h.active hr).1.encodable⟩

theorem sentinel_entries (rows : List Row) :
    warmPayload ((rows.map Row.entry).map (·.scope.pair))
      ((rows.map Row.entry).map (·.scope.scopeType)) = sentinel (rows.map Row.scope) := by
  unfold sentinel
  rw [List.map_map, List.map_map, List.map_map, List.map_map]
  rfl

theorem Settled.markWarm (h : Settled b st N w) {data : List (Str × Json)} (ttl : Int)
    (hc : ∀ text, RedisBlockStore.dumpsWarm data = .ok text →
      CoversText b (· ∈ scopesOf w.table.rows) text) :
    Settled b st N (exec backend (st.redis.markWarm ttl data) w).2 ∧
      (exec backend (st.redis.markWarm ttl data) w).2.now = w.now ∧
      (exec backend (st.redis.markWarm ttl data) w).2.table = w.table := by
  unfold RedisBlockStore.markWarm
  rw [exec_bind, exec_ofExcept]
  cases htext : RedisBlockStore.dumpsWarm data with
  | error e => exact ⟨h, rfl, rfl⟩
  | ok text =>
    dsimp only
    rw [exec_wrap, exec_perform]
    rcases hset : backend _ (.set st.redis.warmKey text ttl) w with ⟨r, w'⟩
    rcases set_cases hset with ⟨rfl, -, -, -, rfl⟩ | ⟨rfl, -, rfl⟩ | ⟨rfl, rfl⟩
    · exact ⟨h.warmed (hc text htext), rfl, rfl⟩
    · rw [quiet_sent h.quiet]
      exact ⟨h, rfl, rfl⟩
    · exact ⟨h, rfl, rfl⟩

theorem leaves_rewarm : Leaves b st N (st.rewarm b) := by
  refine fun w h => ⟨?_, fun _ _ => trivial⟩
  have hs : ∀ e ∈ (w.table.active w.now).map Row.entry, N e.scope := by
    intro e he
    obtain ⟨r, hr, rfl⟩ := List.mem_map.mp he
    exact (h.active hr).2
  have h1 := (@leaves_cacheEach b st N _ hs w h).1
  unfold TieredBlockStore.rewarm
  rw [exec_bind_ok _ (exec_activeBlocks h.quiet), exec_bind]
  rcases hx : exec backend (st.cacheEach b ((w.table.active w.now).map Row.entry)) w with ⟨r, w1⟩
  rw [hx] at h1
  obtain ⟨h1, hn, ht⟩ := h1
  cases r with
  | error e => exact ⟨h1, hn, ht⟩
  | ok u =>
    dsimp only at h1 hn ht ⊢
    rw [sentinel_entries, ← ht, ← hn]
    exact h1.markWarm _ fun text htext => covers_active h1 htext

theorem leaves_readWarm : Leaves b st N st.redis.readWarm := by
  refine preserves_bind (preserves_wrap (leaves_get _) _ _) fun raw _ => ?_
  cases raw with
  | none => exact leaves_done _
  | some text =>
    dsimp only
    split
    · exact leaves_done _
    · exact leaves_done _
    · exact leaves_done _

/-- an entry of Postgres is that of a scope that has been blocked -/
theorem preserves_pg_getActive (s : BlockScope) :
    Preserves b st N (Postgres.getActive s) fun o => ∀ e, o = some e → N e.scope := by
  refine preserves_bind leaves_now fun now _ => ?_
  refine preserves_bind (P := fun o => ∀ r, o = some r → N r.scope) (preserves_wrap ?_ _ _) ?_
  · refine preserves_send
      (f := fun w => (w.table.active now).find? fun r => decide (r.scope = s)) (fun w => rfl) ?_
    exact fun w h r hr => (h.active (List.mem_of_find?_eq_some hr)).2
  · refine fun o ho w h => ⟨⟨h, rfl, rfl⟩, fun o' ho' e he => ?_⟩
    obtain rfl := Except.ok.inj ho'
    obtain ⟨r, hr, rfl⟩ := Option.map_eq_some_iff.mp he
    exact ho r hr

theorem preserves_pg_firstActive (ss : List BlockScope) :
    Preserves b st N (Postgres.firstActive ss) fun o => ∀ e, o = some e → N e.scope := by
  unfold Postgres.firstActive
  split
  · refine fun w h => ⟨⟨h, rfl, rfl⟩, fun o ho e he => ?_⟩
    obtain rfl := Except.ok.inj ho
    cases he
  · refine preserves_bind leaves_now fun now _ => ?_
    refine preserves_bind (P := fun rows => ∀ r ∈ rows, N r.scope) (preserves_wrap ?_ _ _) ?_
    · refine preserves_send
        (f := fun w => (w.table.active now).filter fun r => decide (r.scope ∈ ss)) (fun w => rfl) ?_
      exact fun w h r hr => (h.active (List.mem_filter.mp hr).1).2
    · refine fun rows hrows w h => ⟨⟨h, rfl, rfl⟩, fun o ho e he => ?_⟩
      obtain rfl := Except.ok.inj ho
      obtain ⟨r, hr, rfl⟩ := Option.map_eq_some_iff.mp he
      obtain ⟨s, -, hs⟩ := List.exists_of_findSome?_eq_some hr
      exact hrows r (byKey_some hs).1

theorem leaves_verifyMembers (members : List (Str × Str)) (ss : List BlockScope) :
    Leaves b st N (st.verifyMembers b members ss) := by
  induction ss with
  | nil => exact leaves_done _
  | cons s rest ih =>
    unfold TieredBlockStore.verifyMembers
    split
    · refine preserves_bind (preserves_pg_getActive s) fun o ho => ?_
      cases o with
      | some entry =>
        exact preserves_bind (leaves_cachePermanent (ho entry rfl)) fun _ _ => leaves_done _
      | none => exact ih
    · exact ih

theorem leaves_verifyTypes (types : Option Json) (ss : List BlockScope) :
    Leaves b st N (st.verifyTypes b types ss) := by
  refine preserves_bind (leaves_done _) fun allowed _ => ?_
  dsimp only
  split
  · exact leaves_done _
  · refine preserves_bind (preserves_pg_firstActive _) fun o ho => ?_
    cases o with
    | some entry =>
      exact preserves_bind (leaves_cachePermanent (ho entry rfl)) fun _ _ => leaves_done _
    | none => exact leaves_done _

theorem leaves_answerWarmMiss (ss : List BlockScope) : Leaves b st N (st.answerWarmMiss b ss) := by
  refine preserves_bind leaves_readWarm fun warm _ => ?_
  cases warm with
  | none => exact preserves_bind leaves_rewarm fun _ _ => leaves_redis_firstActive ss
  | some data =>
    dsimp only
    split
    · exact preserves_bind (leaves_done _) fun ms _ => leaves_verifyMembers ms ss
    · split
      · exact leaves_verifyTypes _ ss
      · exact leaves_done _

theorem leaves_firstActive (ss : List BlockScope) : Leaves b st N (st.firstActive b ss) := by
  refine preserves_bind (leaves_redis_firstActive ss) fun hit _ => ?_
  cases hit with
  | some entry => exact leaves_done _
  | none =>
    dsimp only
    split
    · exact leaves_done _
    · exact leaves_answerWarmMiss ss

theorem leaves_getActive (s : BlockScope) : Leaves b st N (st.getActive b s) := by
  refine preserves_bind (leaves_redis_getActive s) fun hit _ => ?_
  cases hit with
  | some entry => exact leaves_done _
  | none =>
    dsimp only
    split
    · exact leaves_answerWarmMiss [s]
    · exact leaves_done _

/-! ## runs -/

theorem Settled.block (hpg : st.pg = true) (h : Settled b st N w) {s : BlockScope} {a : BlockArgs}
    {ttl : Option Int} {e : BlockEntry} {w' : World} (hs : N s)
    (hx : exec backend (st.block b s a ttl) w = (.ok e, w')) : Settled b st N w' := by
  cases ttl with
  | some n =>
    rcases redis_block_cases hx with ⟨e, v, -, -, hk, -, -, hv, rfl⟩ | ⟨x, hx, -⟩ | ⟨x, hx, -⟩
    · exact h.stored hs hk hv
    · cases hx
    · cases hx
  | none =>
    obtain ⟨he, ha, -, -, w1, w2, rfl, h2, h3⟩ := block_permanent_ok hpg hx
    have hban := @Settled.ban _ _ _ _ h _ _ w.now hs he ha
    have hq1 : (w.upserted s a w.now).faults = [] := quiet_tail h.quiet
    have hq2 : w2.faults = [] := by
      rcases h2 with ⟨v, -, -, -, -, rfl⟩ | ⟨-, rfl⟩
      · exact quiet_tail hq1
      · exact quiet_tail hq1
    rcases h3 with ⟨-, rfl⟩ | ⟨hne, -⟩
    · rcases h2 with ⟨v, hk, -, -, hv, rfl⟩ | ⟨-, rfl⟩
      · rw [stored_dropped]
        exact hban.stored hs hk hv
      · rw [quiet_sent hq1]
        exact hban
    · exact absurd (quiet_fault hq2) hne

theorem Settled.unblock (hpg : st.pg = true) (h : Settled b st N w) {s : BlockScope}
    {reason revokedBy : Str} {n : Int} {w' : World}
    (hx : exec backend (st.unblock s reason revokedBy) w = (.ok n, w')) : Settled b st N w' := by
  obtain ⟨-, w1, w2, -, rfl, -, rfl, h3⟩ := unblock_ok hpg hx
  have h2 := (h.dropped (st.redis.key s)).revoked s reason revokedBy
    (w.dropped (st.redis.key s)).now
  rcases h3 with ⟨-, rfl⟩ | ⟨hne, -⟩
  · exact h2.dropped st.redis.warmKey
  · exact absurd (quiet_fault h2.quiet) hne

theorem settled_step (hpg : st.pg = true) (h : Settled b st N w) {x : Step} {w' : World}
    (hN : ∀ s ∈ x.scopes, N s) (hs : stepAlone b st w x = some w') : Settled b st N w' := by
  cases x with
  | env x =>
    obtain rfl := Option.some.inj hs
    exact h.env x
  | call o =>
    obtain ⟨a, ha⟩ := stepAlone_call hs
    cases o with
    | block s args ttl =>
      obtain ⟨e, he, -⟩ := exec_answer ha
      exact h.block hpg (hN s (List.mem_singleton_self s)) he
    | unblock s reason revokedBy =>
      obtain ⟨n, hn, -⟩ := exec_answer ha
      exact h.unblock hpg hn
    | getActive s =>
      obtain ⟨o, ho, -⟩ := exec_answer ha
      have := (leaves_getActive s w h).1.1
      rwa [ho] at this
    | firstActive ss =>
      obtain ⟨o, ho, -⟩ := exec_answer ha
      have := (leaves_firstActive ss w h).1.1
      rwa [ho] at this

/-- **every run of complete calls keeps the backends settled** -/
theorem settled_run (hpg : st.pg = true) (h : Settled b st N w) {steps : List Step} {w' : World}
    (hN : ∀ x ∈ steps, ∀ s ∈ x.scopes, N s) (hr : runAlone b st w steps = some w') :
    Settled b st N w' := by
  induction steps generalizing w with
  | nil =>
    obtain rfl := Option.some.inj hr
    exact h
  | cons x xs ih =>
    obtain ⟨w1, h1, h2⟩ := Option.bind_eq_some_iff.mp hr
    exact ih (settled_step hpg h (hN x List.mem_cons_self) h1)
      (fun y hy => hN y (List.mem_cons_of_mem _ hy)) h2

end

end SecAudit
