import SecAudit.Enforce.Trail

/-!
# Blocks that are taken out, and the trail as a whole

* `TieredBlockStore.store`  the tiered store, as the enforcement calls it;
* `Holds`           a scope is blocked in one of the tiers;
* `unblock_cases`   what an `unblock` does to the tiers;
* `Spared`          no block is lost between the two tiers;
* `audit_trail`     the trail is complete exactly when no failed write suppresses anything, and no
                    removal from one tier is lost by a failure of the other.
-/

set_option linter.unusedVariables false

namespace SecAudit
open Py Prog

namespace TieredBlockStore

section
variable (b : Builtins) (st : TieredBlockStore)

/-- the store, its calls run alone -/
def store : BlockStore World where
  block scope a ttl w := exec backend (st.block b scope a ttl) w
  unblock scope reason revokedBy w := exec backend (st.unblock scope reason revokedBy) w
  firstActive scopes w := exec backend (st.firstActive b scopes) w

/-- an entry of the scope is in Redis -/
def Caches (w : World) (s : BlockScope) : Prop :=
  ∃ payload entry, w.read (st.redis.key s) = some payload ∧ entryFromJson b payload = .ok entry ∧
    entry.scope = s

/-- a row of the scope is in the table -/
def Lists (w : World) (s : BlockScope) : Prop := st.pg = true ∧ s ∈ scopesOf w.table.rows

def Holds (w : World) (s : BlockScope) : Prop := st.Caches b w s ∨ st.Lists w s

/-- the `DEL` of a scope goes through -/
def DelGoes (w : World) (s : BlockScope) : Prop :=
  encodable (st.redis.key s) = true ∧ w.fault = none

end

/-- the revocation of a scope goes through -/
def RevokeGoes (w : World) (s : BlockScope) (reason revokedBy : Str) : Prop :=
  (s.texts ++ [reason, revokedBy]).all encodable = true ∧ w.fault = none

/-! ## what an `unblock` does -/

section
variable {b : Builtins} {st : TieredBlockStore} {s : BlockScope} {reason revokedBy : Str}
  {w w' : World}

theorem revoke_cases {t : Int} {r : Except Exc Int}
    (h : backend _ (.revoke s reason revokedBy t) w = (r, w')) :
    (RevokeGoes w s reason revokedBy ∧ r = .ok (w.table.revoke s reason revokedBy t).1 ∧
      w' = w.revoked s reason revokedBy t) ∨
    (¬ RevokeGoes w s reason revokedBy ∧ (∃ x, r = .error x) ∧ w'.now = w.now ∧
      w'.redis = w.redis ∧ w'.table = w.table) := by
  have h' : w.send (s.texts ++ [reason, revokedBy]) Fault.databaseExc (fun w =>
      (.ok (w.table.revoke s reason revokedBy t).1,
        { w with table := (w.table.revoke s reason revokedBy t).2 })) = (r, w') := h
  unfold World.send at h'
  by_cases he : (s.texts ++ [reason, revokedBy]).all encodable = true
  · rw [if_pos he] at h'
    cases hf : w.fault with
    | some f =>
      simp only [hf] at h'
      obtain ⟨rfl, rfl⟩ := Prod.mk.inj h'
      refine .inr ⟨fun hg => ?_, ⟨_, rfl⟩, rfl, rfl, rfl⟩
      rw [hg.2] at hf
      cases hf
    | none =>
      simp only [hf] at h'
      obtain ⟨rfl, rfl⟩ := Prod.mk.inj h'
      exact .inl ⟨⟨he, hf⟩, rfl, rfl⟩
  · rw [if_neg he] at h'
    obtain ⟨rfl, rfl⟩ := Prod.mk.inj h'
    exact .inr ⟨fun hg => he hg.1, ⟨_, rfl⟩, rfl, rfl, rfl⟩

/-- `PostgresBlockStore.unblock`: revoked, or refused -/
theorem pg_unblock_cases {r : Except Exc Int}
    (h : exec backend (Postgres.unblock s reason revokedBy) w = (r, w')) :
    (RevokeGoes w s reason revokedBy ∧ r = .ok (w.table.revoke s reason revokedBy w.now).1 ∧
      w' = w.revoked s reason revokedBy w.now) ∨
    (¬ RevokeGoes w s reason revokedBy ∧ (∃ x, r = .error x) ∧ w'.now = w.now ∧
      w'.redis = w.redis ∧ w'.table = w.table) := by
  unfold Postgres.unblock Postgres.wrap at h
  rw [exec_bind, exec_perform] at h
  replace h : exec backend (Call.wrap _ _ (perform (.revoke s reason revokedBy w.now))) w
    = (r, w') := h
  rw [exec_wrap, exec_perform] at h
  rcases hu : backend _ (.revoke s reason revokedBy w.now) w with ⟨r1, w1⟩
  rw [hu] at h
  rcases revoke_cases hu with ⟨hg, rfl, rfl⟩ | ⟨hg, ⟨x, rfl⟩, hnow, hredis, htable⟩
  · obtain ⟨rfl, rfl⟩ := Prod.mk.inj h
    exact .inl ⟨hg, rfl, rfl⟩
  · obtain ⟨rfl, rfl⟩ := Prod.mk.inj h
    exact .inr ⟨hg, ⟨_, rfl⟩, hnow, hredis, htable⟩

/-- a `DEL` that is not sent has a key without a UTF-8 form -/
theorem delete_unsent {k : Str} (h : backend _ (.delete k) w = (.error .unicodeError, w')) :
    ¬ encodable k = true := by
  intro he
  have h' : w.send [k] (fun _ => .redisError) (fun w =>
      (.ok (if (w.read k).isSome then (1 : Int) else 0), { w with redis := w.redis.drop k }))
      = (.error .unicodeError, w') := h
  unfold World.send at h'
  rw [if_pos (by rw [List.all_cons, he]; rfl)] at h'
  cases hf : w.fault with
  | some f =>
    simp only [hf] at h'
    cases (Prod.mk.inj h').1
  | none =>
    simp only [hf] at h'
    cases (Prod.mk.inj h').1

/-- `_invalidate_warm`, with a key that can be sent -/
theorem invalidateWarm_sent (hk : encodable st.redis.warmKey = true) :
    ∃ w', exec backend st.invalidateWarm w = (.ok (), w') ∧
      (w' = w.dropped st.redis.warmKey ∨ w' = w.sent) := by
  unfold TieredBlockStore.invalidateWarm TieredBlockStore.bestEffort RedisBlockStore.clearWarm
  rw [exec_catchWith, exec_bind, exec_wrap, exec_perform]
  rcases hd : backend _ (.delete st.redis.warmKey) w with ⟨r1, w1⟩
  rcases delete_cases hd with ⟨rfl, -, -, rfl⟩ | ⟨rfl, -, -, rfl⟩ | ⟨rfl, rfl⟩
  · exact ⟨_, rfl, .inl rfl⟩
  · exact ⟨_, rfl, .inr rfl⟩
  · exact absurd hk (delete_unsent hd)

/-- what Redis answers once the key of `s` is gone -/
def Gone (st : TieredBlockStore) (s : BlockScope) (w w' : World) : Prop :=
  ∀ s', w'.read (st.redis.key s') = if st.redis.key s' = st.redis.key s then none
    else w.read (st.redis.key s')

theorem read_dropped (w : World) (k k' : Str) :
    (w.dropped k).read k' = if k' = k then none else w.read k' := by
  show ExpMap.get w.now k' (w.redis.drop k) = _
  split
  · rename_i h
    rw [h, ExpMap.get_drop_same]
  · rename_i h
    exact ExpMap.get_drop_other w.now w.redis h

theorem read_eq {w w' : World} (hn : w'.now = w.now) (hr : w'.redis = w.redis) (k : Str) :
    w'.read k = w.read k := by
  unfold World.read
  rw [hn, hr]

/-- the number of keys a `DEL` removes -/
def liveKey (st : TieredBlockStore) (s : BlockScope) (w : World) : Int :=
  if (w.read (st.redis.key s)).isSome then 1 else 0

/-- `unblock`: refused by Redis, refused by Postgres, or done -/
theorem unblock_cases {r : Except Exc Int}
    (h : exec backend (st.unblock s reason revokedBy) w = (r, w')) :
    (¬ st.DelGoes w s ∧ (∃ x, r = .error x) ∧
      (∀ s', w'.read (st.redis.key s') = w.read (st.redis.key s')) ∧ w'.table = w.table) ∨
    (st.DelGoes w s ∧ Gone st s w w' ∧
      ((st.pg = true ∧ ¬ RevokeGoes w.sent s reason revokedBy ∧ (∃ x, r = .error x) ∧
          w'.table = w.table) ∨
        (st.pg = false ∧ r = .ok (liveKey st s w) ∧ w'.table = w.table) ∨
        (st.pg = true ∧ RevokeGoes w.sent s reason revokedBy ∧
          r = .ok (liveKey st s w + (w.table.revoke s reason revokedBy w.now).1) ∧
          w'.table = (w.table.revoke s reason revokedBy w.now).2))) := by
  unfold TieredBlockStore.unblock RedisBlockStore.unblock at h
  rw [exec_bind, exec_wrap, exec_perform] at h
  rcases hd : backend _ (.delete (st.redis.key s)) w with ⟨r1, w1⟩
  rw [hd] at h
  rcases delete_cases hd with ⟨rfl, hk, hf, rfl⟩ | ⟨rfl, hk, hf, rfl⟩ | ⟨rfl, rfl⟩
  · refine .inr ⟨⟨hk, hf⟩, ?_⟩
    by_cases hpg : st.pg = true
    · simp only [hpg, if_true] at h
      rw [exec_bind] at h
      rcases h2 : exec backend (Postgres.unblock s reason revokedBy) (w.dropped (st.redis.key s))
        with ⟨r2, w2⟩
      rw [h2] at h
      rcases pg_unblock_cases h2 with ⟨hg, rfl, rfl⟩ | ⟨hg, ⟨x, rfl⟩, hnow, hredis, htable⟩
      · replace h : exec backend (st.invalidateWarm >>= fun _ => _) _ = (r, w') := h
        rw [exec_bind] at h
        have hwarm : encodable st.redis.warmKey = true :=
          (encodable_warmKey st.redis).mpr ((encodable_key st.redis).mp hk).1
        obtain ⟨w3, h3, hw3⟩ := @invalidateWarm_sent st
          ((w.dropped (st.redis.key s)).revoked s reason revokedBy w.now) hwarm
        rw [show (w.dropped (st.redis.key s)).now = w.now from rfl, h3] at h
        obtain ⟨rfl, rfl⟩ := Prod.mk.inj h
        have hread : ∀ s', w3.read (st.redis.key s')
            = (w.dropped (st.redis.key s)).read (st.redis.key s') := by
          intro s'
          rcases hw3 with rfl | rfl
          · exact (read_dropped _ _ _).trans (if_neg (key_ne_warmKey st.redis s'))
          · rfl
        refine ⟨fun s' => (hread s').trans (read_dropped w _ _), .inr (.inr ⟨hpg, hg, rfl, ?_⟩)⟩
        rcases hw3 with rfl | rfl <;> rfl
      · obtain ⟨rfl, rfl⟩ := Prod.mk.inj h
        refine ⟨fun s' => ?_, .inl ⟨hpg, hg, ⟨_, rfl⟩, htable⟩⟩
        rw [read_eq hnow hredis, read_dropped]
    · rw [Bool.not_eq_true] at hpg
      simp only [hpg, Bool.false_eq_true, if_false] at h
      obtain ⟨rfl, rfl⟩ := Prod.mk.inj h
      exact ⟨fun s' => read_dropped w _ _, .inr (.inl ⟨hpg, rfl, rfl⟩)⟩
  · obtain ⟨rfl, rfl⟩ := Prod.mk.inj h
    exact .inl ⟨fun hg => hf hg.2, ⟨_, rfl⟩, fun s' => rfl, rfl⟩
  · obtain ⟨rfl, rfl⟩ := Prod.mk.inj h
    exact .inl ⟨fun hg => delete_unsent hd hg.1, ⟨_, rfl⟩, fun s' => rfl, rfl⟩

/-! ## what is told of it -/

end

end TieredBlockStore

section
variable {Response : Type}

/-- an event that a block of the scope was removed -/
def Revokes (s : BlockScope) : Happening Response → Prop
  | ⟨.emit event _, _⟩ => event.eventType = BLOCK_REVOKED ∧
    getItem (str "scope.type") event.attributes = some (.string s.scopeType) ∧
    getItem (str "scope.value") event.attributes = some (.string s.scopeValue)
  | _ => False

/-- the event of a removal names its scope, and no other -/
theorem revokes_iff {schemaVersion revokedBy reason : Str} {built : Built} {s s' : BlockScope}
    {r : Except Exc Unit} (ht : built.event.eventType = BLOCK_REVOKED)
    (ha : built.event.attributes = withAuthoritative (attrs (revokedItems s revokedBy reason))
      BLOCK_REVOKED schemaVersion) :
    Revokes s' (⟨.emit built.event built.level, r⟩ : Happening Response) ↔ s' = s := by
  have hblank : ∀ {t : Str}, t ≠ [] → isBlank (.string t) = false := by
    intro t h
    cases t with
    | nil => exact absurd rfl h
    | cons c l => rfl
  have htype : getItem (str "scope.type") built.event.attributes = some (.string s.scopeType) := by
    rw [ha]
    unfold withAuthoritative attrs revokedItems
    rw [getItem_setItem_other _ _ (by decide), getItem_setItem_other _ _ (by decide),
      List.filter_cons_of_pos (by rw [hblank s.type_ne]; rfl)]
    rfl
  have hvalue : getItem (str "scope.value") built.event.attributes
      = some (.string s.scopeValue) := by
    rw [ha]
    unfold withAuthoritative attrs revokedItems
    rw [getItem_setItem_other _ _ (by decide), getItem_setItem_other _ _ (by decide),
      List.filter_cons_of_pos (by rw [hblank s.type_ne]; rfl),
      List.filter_cons_of_pos (by rw [hblank s.value_ne]; rfl)]
    rfl
  unfold Revokes
  dsimp only
  rw [htype, hvalue]
  constructor
  · rintro ⟨-, h1, h2⟩
    have h1 := Json.string.inj (Option.some.inj h1)
    have h2 := Json.string.inj (Option.some.inj h2)
    exact BlockScope.pair_injective (Prod.ext h1.symm h2.symm)
  · rintro rfl
    exact ⟨ht, rfl, rfl⟩

variable {σ : Type} {site : Site Response σ} {py : Interp} {rt : DjangoEnforcementRuntime}
  {scopeType scopeValue reason revokedBy : Str} {s : BlockScope} {x x' : σ}
  {r : Except Exc Int}

/-- what `unblock_subject` does once the store has counted -/
theorem runs_revoked (py : Interp) (rt : DjangoEnforcementRuntime) (s : BlockScope)
    (reason revokedBy : Str) (n : Int) (x : σ) :
    ∃ t, Runs site.handler (if n = 0 then pure n else do
        let now ← perform .timeNs
        let built ← ofExcept (buildBlockRevokedEvent py.toBuiltins now rt.schemaVersion s revokedBy
          reason)
        emitBuilt built
        return n : Routine Response Int) x t (.ok n) x ∧
      ∀ s', (∃ y ∈ t, Revokes s' y) ↔ s' = s ∧ n ≠ 0 := by
  by_cases hn : n = 0
  · rw [if_pos hn]
    exact ⟨[], .done _ x, fun s' => iff_of_false (fun ⟨y, hy, _⟩ => absurd hy List.not_mem_nil)
      fun h => h.2 hn⟩
  · rw [if_neg hn]
    obtain ⟨built, hb, ht, ha⟩ := buildBlockRevokedEvent_ok py.toBuiltins (site.timeNs x) rt.schema_ne
      s revokedBy reason
    have hnow := Runs.perform (h := site.handler) (Eff.timeNs : Eff Response Nat) x
    have hemit : Runs site.handler (emitBuilt built >>= fun _ => pure n : Routine Response Int) x
        [⟨.emit built.event built.level, .ok ()⟩] (.ok n) x :=
      (runs_emitBuilt built x).bind (.done (.ok n) x)
    refine ⟨_, hnow.bind (Runs.ofExcept_ok hb hemit), fun s' => ?_⟩
    constructor
    · rintro ⟨y, hy, hr⟩
      rcases List.mem_cons.mp hy with rfl | hy
      · exact hr.elim
      · rw [List.mem_singleton.mp hy] at hr
        exact ⟨(revokes_iff ht ha).mp hr, hn⟩
    · rintro ⟨hs, -⟩
      exact ⟨_, List.mem_cons_of_mem _ List.mem_cons_self, (revokes_iff ht ha).mpr hs⟩

/-- `unblock_subject`: an event of the scope when a block was counted -/
theorem runs_unblockSubject (hm : BlockScope.make scopeType scopeValue = .ok s)
    (hu : site.store.unblock s reason revokedBy x = (r, x')) :
    ∃ t r', Runs site.handler (unblockSubject py rt scopeType scopeValue reason revokedBy) x t r' x' ∧
      ∀ s', (∃ y ∈ t, Revokes s' y) ↔ s' = s ∧ ∃ n, r = .ok n ∧ n ≠ 0 := by
  have hp := Runs.perform (h := site.handler) (Eff.unblock s reason revokedBy : Eff Response Int) x
  rw [show site.handler _ (Eff.unblock s reason revokedBy) x = (r, x') from hu] at hp
  cases r with
  | error e =>
    refine ⟨_, _, Runs.ofExcept_ok hm hp.bind_error, fun s' => iff_of_false ?_ ?_⟩
    · rintro ⟨y, hy, hr⟩
      rw [List.mem_singleton.mp hy] at hr
      exact hr
    · rintro ⟨-, n, h, -⟩
      cases h
  | ok n =>
    obtain ⟨t, hrun, htold⟩ := @runs_revoked Response σ site py rt s reason revokedBy n x'
    refine ⟨_, _, Runs.ofExcept_ok hm (hp.bind hrun), fun s' => ?_⟩
    have hcount : (∃ k, (.ok n : Except Exc Int) = .ok k ∧ k ≠ 0) ↔ n ≠ 0 := by
      constructor
      · rintro ⟨k, hk, h⟩
        rw [Except.ok.inj hk]
        exact h
      · exact fun h => ⟨n, rfl, h⟩
    rw [hcount, ← htold s']
    constructor
    · rintro ⟨y, hy, hr⟩
      rcases List.mem_cons.mp hy with rfl | hy
      · exact hr.elim
      · exact ⟨y, hy, hr⟩
    · rintro ⟨y, hy, hr⟩
      exact ⟨y, List.mem_cons_of_mem _ hy, hr⟩

end

/-! ## what is lost between the tiers -/

namespace TieredBlockStore

section
variable {b : Builtins} {st : TieredBlockStore} {s s' : BlockScope} {reason revokedBy : Str}
  {w w' : World}

/-- once its key is deleted, a block that is in Redis alone is counted and told of: it is that of
the subject, and Postgres does not fail after -/
def Spared (b : Builtins) (st : TieredBlockStore) (s : BlockScope) (reason revokedBy : Str)
    (w : World) : Prop :=
  st.DelGoes w s → ∀ s', st.redis.key s' = st.redis.key s → st.Caches b w s' → ¬ st.Lists w s' →
    s' = s ∧ (st.pg = true → RevokeGoes w.sent s reason revokedBy)

theorem caches_gone (h : Gone st s w w') :
    st.Caches b w' s' ↔ st.redis.key s' ≠ st.redis.key s ∧ st.Caches b w s' := by
  unfold Caches
  rw [h s']
  constructor
  · rintro ⟨payload, entry, hp, he, hs⟩
    split at hp
    · cases hp
    · rename_i hk
      exact ⟨hk, payload, entry, hp, he, hs⟩
  · rintro ⟨hk, payload, entry, hp, he, hs⟩
    exact ⟨payload, entry, (if_neg hk).trans hp, he, hs⟩

theorem lists_same (h : w'.table = w.table) : st.Lists w' s' ↔ st.Lists w s' := by
  unfold Lists
  rw [h]

theorem lists_revoked {t : Int} (h : w'.table = (w.table.revoke s reason revokedBy t).2) :
    st.Lists w' s' ↔ s' ≠ s ∧ st.Lists w s' := by
  unfold Lists
  rw [h, Table.mem_scopesOf_revoke]
  exact and_left_comm

/-- a key that is deleted, and nothing else -/
theorem removed_gone (h : Gone st s w w') (ht : w'.table = w.table) :
    (st.Holds b w s' ∧ ¬ st.Holds b w' s') ↔
      st.redis.key s' = st.redis.key s ∧ st.Caches b w s' ∧ ¬ st.Lists w s' := by
  unfold Holds
  rw [caches_gone h, lists_same ht]
  constructor
  · rintro ⟨hc | hl, hn⟩
    · exact ⟨Classical.byContradiction fun hk => hn (.inl ⟨hk, hc⟩), hc, fun hl => hn (.inr hl)⟩
    · exact absurd (.inr hl) hn
  · rintro ⟨hk, hc, hl⟩
    exact ⟨.inl hc, fun h => h.elim (fun h => h.1 hk) hl⟩

theorem liveKey_caches (hk : st.redis.key s' = st.redis.key s) (h : st.Caches b w s') :
    liveKey st s w = 1 := by
  obtain ⟨payload, entry, hp, -, -⟩ := h
  unfold liveKey
  rw [← hk, hp]
  rfl

theorem liveKey_nonneg : 0 ≤ liveKey st s w := by
  unfold liveKey
  split <;> omega

/-- a row that is there is counted -/
theorem revoke_lists {t : Int} (h : st.Lists w s) :
    0 < (w.table.revoke s reason revokedBy t).1 := by
  obtain ⟨r, hr, hu, hs⟩ := Table.mem_scopesOf.mp h.2
  have hmem : r ∈ w.table.rows.filter (Row.blocks s) :=
    List.mem_filter.mpr ⟨hr, Table.blocks_iff.mpr ⟨hs, hu⟩⟩
  exact Int.natCast_pos.mpr (List.length_pos_of_mem hmem)

theorem revoke_nonneg {t : Int} : 0 ≤ (w.table.revoke s reason revokedBy t).1 :=
  Int.natCast_nonneg _

/-- **every block that is removed is counted**, exactly when none is lost between the tiers -/
theorem removed_counted {r : Except Exc Int}
    (h : exec backend (st.unblock s reason revokedBy) w = (r, w')) :
    (∀ s', st.Holds b w s' → ¬ st.Holds b w' s' → s' = s ∧ ∃ n, r = .ok n ∧ n ≠ 0) ↔
      Spared b st s reason revokedBy w := by
  rcases unblock_cases h with ⟨hd, -, hread, ht⟩ |
    ⟨hd, hgone, ⟨hpg, hg, ⟨x, rfl⟩, ht⟩ | ⟨hpg, rfl, ht⟩ | ⟨hpg, hg, rfl, ht⟩⟩
  · -- nothing was deleted
    refine iff_of_true (fun s' hh hn => absurd ?_ hn) fun hd' => absurd hd' hd
    refine hh.imp (fun hc => ?_) (lists_same ht).mpr
    unfold Caches
    rw [hread s']
    exact hc
  · -- Redis deleted, Postgres refused: nothing is counted
    constructor
    · intro hall hd' s' hk hc hl
      obtain ⟨hh, hn⟩ := (removed_gone hgone ht).mpr ⟨hk, hc, hl⟩
      obtain ⟨-, n, hr, -⟩ := hall s' hh hn
      cases hr
    · intro hsp s' hh hn
      obtain ⟨hk, hc, hl⟩ := (removed_gone hgone ht).mp ⟨hh, hn⟩
      exact absurd ((hsp hd s' hk hc hl).2 hpg) hg
  · -- Redis alone
    constructor
    · intro hall hd' s' hk hc hl
      obtain ⟨hh, hn⟩ := (removed_gone hgone ht).mpr ⟨hk, hc, hl⟩
      refine ⟨(hall s' hh hn).1, fun hpg' => ?_⟩
      rw [hpg] at hpg'
      cases hpg'
    · intro hsp s' hh hn
      obtain ⟨hk, hc, hl⟩ := (removed_gone hgone ht).mp ⟨hh, hn⟩
      refine ⟨(hsp hd s' hk hc hl).1, _, rfl, ?_⟩
      rw [liveKey_caches hk hc]
      exact Int.one_ne_zero
  · -- both tiers
    constructor
    · intro hall hd' s' hk hc hl
      have hn : ¬ st.Holds b w' s' := by
        unfold Holds
        rw [caches_gone hgone, lists_revoked ht]
        exact fun h => h.elim (fun h => h.1 hk) fun h => hl h.2
      exact ⟨(hall s' (.inl hc) hn).1, fun _ => hg⟩
    · intro hsp s' hh hn
      unfold Holds at hn
      rw [caches_gone hgone, lists_revoked ht] at hn
      have hs : s' = s := by
        by_contra hne
        have hl : ¬ st.Lists w s' := fun hl => hn (.inr ⟨hne, hl⟩)
        have hc := hh.resolve_right hl
        have hk : st.redis.key s' = st.redis.key s :=
          Classical.byContradiction fun hk => hn (.inl ⟨hk, hc⟩)
        exact hne (hsp hd s' hk hc hl).1
      subst hs
      refine ⟨rfl, _, rfl, ?_⟩
      have h1 := @liveKey_nonneg st s' w
      have h2 := @revoke_nonneg s' reason revokedBy w w.now
      rcases hh with hc | hl
      · have h3 := liveKey_caches rfl hc
        omega
      · have h3 := @revoke_lists st s' reason revokedBy w w.now hl
        omega

/-! ## a `block` that raises -/

/-- a write that Postgres refuses leaves the tiers as they are -/
theorem pg_block_error {a : BlockArgs} {x : Exc}
    (h : exec backend (Postgres.block s a none) w = (.error x, w')) :
    w'.redis = w.redis ∧ w'.table = w.table := by
  unfold Postgres.block Postgres.expiry Postgres.wrap at h
  rw [exec_bind, exec_pure] at h
  replace h : exec backend (perform .now >>= fun now => _) w = (.error x, w') := h
  rw [exec_bind, exec_perform] at h
  replace h : exec backend (Call.wrap _ _ (Call.wrap _ _
    (perform (.updateOrCreate s a none w.now))) >>= fun row => _) w = (.error x, w') := h
  rw [exec_bind, exec_wrap, exec_wrap, exec_perform] at h
  rcases hu : backend _ (.updateOrCreate s a none w.now) w with ⟨r1, w1⟩
  rw [hu] at h
  cases r1 with
  | ok row => cases (Prod.mk.inj h).1
  | error y =>
    obtain ⟨-, rfl⟩ := Prod.mk.inj h
    replace hu : (if a.writable = true then w.send (s.texts ++ a.texts) Fault.databaseExc fun w =>
        (.ok (w.table.upsert s a none w.now).1, { w with table := (w.table.upsert s a none w.now).2 })
      else (.error .jsonError, w)) = (.error y, w1) := hu
    split at hu
    · unfold World.send at hu
      split at hu
      · split at hu
        · obtain ⟨-, rfl⟩ := Prod.mk.inj hu
          exact ⟨rfl, rfl⟩
        · cases (Prod.mk.inj hu).1
      · obtain ⟨-, rfl⟩ := Prod.mk.inj hu
        exact ⟨rfl, rfl⟩
    · obtain ⟨-, rfl⟩ := Prod.mk.inj hu
      exact ⟨rfl, rfl⟩

theorem redis_block_error {a : BlockArgs} {n : Int} {x : Exc}
    (h : exec backend (st.redis.block b s a (some n)) w = (.error x, w')) :
    w'.redis = w.redis ∧ w'.table = w.table := by
  rcases redis_block_cases h with ⟨e, v, he, -⟩ | ⟨y, -, -, -, rfl⟩ | ⟨y, -, -, rfl⟩
  · cases he
  · exact ⟨rfl, rfl⟩
  · exact ⟨rfl, rfl⟩

/-- **a `block` that a backend failure ends** has written nothing -/
theorem block_error {a : BlockArgs} {ttl : Option Int} {x : Exc}
    (h : exec backend (st.block b s a ttl) w = (.error x, w')) (hx : x.isBlockStoreError = true) :
    w'.redis = w.redis ∧ w'.table = w.table := by
  unfold TieredBlockStore.block at h
  cases ttl with
  | some n => exact redis_block_error h
  | none =>
    by_cases hpg : st.pg = true
    · simp only [hpg, if_true] at h
      rw [exec_bind] at h
      rcases h1 : exec backend (Postgres.block s a none) w with ⟨r1, w1⟩
      rw [h1] at h
      cases r1 with
      | error y =>
        obtain ⟨-, rfl⟩ := Prod.mk.inj h
        exact pg_block_error h1
      | ok entry =>
        -- the cache and the sentinel swallow such a failure
        replace h : exec backend (st.cachePermanent b entry >>= fun _ => _) w1 = (.error x, w') := h
        rw [exec_bind] at h
        rcases h2 : exec backend (st.cachePermanent b entry) w1 with ⟨r2, w2⟩
        rw [h2] at h
        rcases cachePermanent_cases h2 with ⟨rfl, -⟩ | ⟨y, rfl, hy⟩
        · replace h : exec backend (st.invalidateWarm >>= fun _ => _) w2 = (.error x, w') := h
          rw [exec_bind] at h
          rcases h3 : exec backend st.invalidateWarm w2 with ⟨r3, w3⟩
          rw [h3] at h
          rcases invalidateWarm_cases h3 with ⟨rfl, -⟩ | ⟨y, rfl, hy⟩
          · cases (Prod.mk.inj h).1
          · obtain rfl := Except.error.inj (Prod.mk.inj h).1
            rw [hx] at hy
            cases hy
        · obtain rfl := Except.error.inj (Prod.mk.inj h).1
          rw [hx] at hy
          cases hy
    · rw [if_neg hpg] at h
      exact redis_block_error h

end

end TieredBlockStore

/-! ## the trail -/

section
variable {Response σ : Type} {site : Site Response σ} {py : Interp} {rt : DjangoEnforcementRuntime}

/-- **a block by hand** is told of when it was written -/
theorem complete_blockSubject (scopeType scopeValue : Str) (a : SubjectArgs) (ttl : Option Int)
    (s : σ) :
    (seen py.toBuiltins rt.schemaVersion (trace site.handler
        (blockSubject py rt scopeType scopeValue a ttl) s)).applied
      = (seen py.toBuiltins rt.schemaVersion (trace site.handler
        (blockSubject py rt scopeType scopeValue a ttl) s)).written := by
  unfold blockSubject
  cases hm : BlockScope.make scopeType scopeValue with
  | error x => rfl
  | ok scope =>
    rcases hw : site.store.block scope (a.blockArgs rt) ttl s with ⟨x | entry, s'⟩
    · have hblock := Runs.perform (h := site.handler)
        (Eff.block scope (a.blockArgs rt) ttl : Eff Response BlockEntry) s
      rw [show site.handler _ (Eff.block scope (a.blockArgs rt) ttl) s = (.error x, s') from hw]
        at hblock
      rw [(Runs.ofExcept_ok rfl hblock.bind_error).trace_eq]
      rfl
    · have hblock := Runs.perform (h := site.handler)
        (Eff.block scope (a.blockArgs rt) ttl : Eff Response BlockEntry) s
      rw [show site.handler _ (Eff.block scope (a.blockArgs rt) ttl) s = (.ok entry, s') from hw]
        at hblock
      obtain ⟨built, hb, htype, hattrs⟩ := buildBlockAppliedEvent_ok py.toBuiltins (site.timeNs s')
        rt.schema_ne entry (subjectKind ttl).text ttl
      have hnow := Runs.perform (h := site.handler) (Eff.timeNs : Eff Response Nat) s'
      have hemit : Runs site.handler (emitBuilt built >>= fun _ => pure entry :
          Routine Response BlockEntry) s' [⟨.emit built.event built.level, .ok ()⟩] (.ok entry) s' :=
        (runs_emitBuilt built s').bind (.done _ s')
      rw [(Runs.ofExcept_ok rfl (hblock.bind (hnow.bind (Runs.ofExcept_ok hb hemit)))).trace_eq,
        seen_append, seen_append, seen_emit_applied htype, hattrs]
      rfl

end

section
variable {Response : Type}

/-- the site, with the tiered store -/
def Site.tiered (site : Site Response World) (b : Builtins) (st : TieredBlockStore) :
    Site Response World := { site with store := st.store b }

/-- **a removal by hand**: each scope whose block is removed is told of, exactly when none is lost
between the tiers -/
theorem told_unblockSubject {site : Site Response World} {py : Interp}
    {rt : DjangoEnforcementRuntime} {st : TieredBlockStore} {scopeType scopeValue : Str}
    {s : BlockScope} (reason revokedBy : Str) (w : World)
    (hm : BlockScope.make scopeType scopeValue = .ok s) :
    (∀ s', st.Holds py.toBuiltins w s' →
        ¬ st.Holds py.toBuiltins (exec (site.tiered py.toBuiltins st).handler
          (unblockSubject py rt scopeType scopeValue reason revokedBy) w).2 s' →
        ∃ y ∈ trace (site.tiered py.toBuiltins st).handler
          (unblockSubject py rt scopeType scopeValue reason revokedBy) w, Revokes s' y) ↔
      st.Spared py.toBuiltins s reason revokedBy w := by
  rcases hu : exec backend (st.unblock s reason revokedBy) w with ⟨r, w'⟩
  obtain ⟨t, r', hrun, htold⟩ := @runs_unblockSubject Response World
    (site.tiered py.toBuiltins st) py rt _ _ reason revokedBy s w w' r hm hu
  rw [hrun.exec_eq, hrun.trace_eq, ← TieredBlockStore.removed_counted hu]
  exact forall_congr' fun s' => imp_congr_right fun _ => imp_congr_right fun _ => htold s'

end

/-- **the trail of the enforcement**: for an event, each write is told of once and every write and
alert of its matches is tried, exactly when the writes that fail suppress nothing; a block by hand is
told of; a removal by hand is told of exactly when no block is lost between the tiers; and a `block`
of the tiered store that a backend failure ends has written nothing -/
theorem audit_trail {Response σ : Type} (py : Interp) (rt : DjangoEnforcementRuntime)
    (site : Site Response σ) (place : Site Response World) (st : TieredBlockStore) :
    (∀ (event : AuditEvent) (s : σ),
      let detected := exec site.handler (rt.matchesFor py event) s
      let plans := rt.plansFor py event (detected.1.toOption.getD [])
      Complete (seen py.toBuiltins rt.schemaVersion
          (trace site.handler (rt.handleEvent py event) s)) (planned rt.stops plans) ↔
        Unharmed site.store rt.stops plans detected.2) ∧
    (∀ (scopeType scopeValue : Str) (a : SubjectArgs) (ttl : Option Int) (s : σ),
      let x := seen py.toBuiltins rt.schemaVersion
        (trace site.handler (blockSubject py rt scopeType scopeValue a ttl) s)
      x.applied = x.written) ∧
    (∀ (scopeType scopeValue reason revokedBy : Str) (w : World),
      let p := unblockSubject py rt scopeType scopeValue reason revokedBy
      let h := (place.tiered py.toBuiltins st).handler
      (∀ scope, st.Holds py.toBuiltins w scope → ¬ st.Holds py.toBuiltins (exec h p w).2 scope →
          ∃ y ∈ trace h p w, Revokes scope y) ↔
        ∀ s, BlockScope.make scopeType scopeValue = .ok s →
          st.Spared py.toBuiltins s reason revokedBy w) ∧
    (∀ (scope : BlockScope) (a : BlockArgs) (ttl : Option Int) (w w' : World) (x : Exc),
      exec backend (st.block py.toBuiltins scope a ttl) w = (.error x, w') →
        x.isBlockStoreError = true → w'.redis = w.redis ∧ w'.table = w.table) := by
  refine ⟨fun event s => DjangoEnforcementRuntime.complete_handleEvent s rfl,
    fun scopeType scopeValue a ttl s => complete_blockSubject scopeType scopeValue a ttl s,
    fun scopeType scopeValue reason revokedBy w => ?_,
    fun scope a ttl w w' x h hx => TieredBlockStore.block_error h hx⟩
  dsimp only
  cases hm : BlockScope.make scopeType scopeValue with
  | error x =>
    refine iff_of_true (fun scope hh hn => absurd hh ?_) nofun
    unfold unblockSubject at hn
    rw [hm] at hn
    exact hn
  | ok s =>
    rw [told_unblockSubject reason revokedBy w hm]
    constructor
    · intro h s' hs
      rw [← Except.ok.inj hs]
      exact h
    · exact fun h => h s rfl

/-! ## on a store that fails at the second scope -/

/-- the first block is written, the others fail -/
def failingStore : BlockStore Nat where
  block scope a _ n :=
    (if n = 0 then .ok (.make scope a none none) else .error (.blockStoreError (str "down")), n + 1)
  unblock _ _ _ n := (.ok 0, n)
  firstActive _ n := (.ok none, n)

/-- a rule that always finds something -/
def failingSite : Site Unit Nat where
  clock _ := 1000
  timeNs _ := 1
  ruleEvaluate rule event ctx n :=
    (.ok (.found (makeMatch .sample rule.name 8 ctx.now (str "found") event [] [] none none)), n)
  ruleAttributes _ _ _ n := (.ok .none, n)
  sink _ _ n := (.ok (), n)
  append _ _ _ n := (.ok (), n)
  store := failingStore
  getResponse n := (.ok (), n)

/-- `rule_actions = {'burst': {'action': 'temp_block', 'scopes': ['user', 'ip']}}` -/
def twoScopes : DjangoEnforcementRuntime where
  config := { ruleActions := [(str "burst", {
    action := str "temp_block", scopes := some (.ok [str "user", str "ip"]),
    action_known := tempBlock_known })] }
  scopeRegistry := .default .sample
  rules := [{ name := str "burst" }]
  schemaVersion := str "1.0"
  schema_ne := schemaOne_ne

/-- an event of a user at an address -/
def loginAttributes : List (Str × Json) :=
  [(str "event_type", .string (str "auth.login")), (str "schema_version", .string (str "1.0")),
    (str "srcip", .string (str "192.0.2.1")), (str "user_id", .string (str "7"))]

def loginAudit : AuditEvent where
  eventType := str "auth.login"
  schemaVersion := str "1.0"
  body := str "auth.login"
  attributes := loginAttributes
  timestampNs := 1
  observedTimestampNs := none
  eventType_ne := by decide
  schemaVersion_ne := schemaOne_ne
  canonical := by decide
  type_item := rfl
  schema_item := rfl

/-- the user is blocked, the address is not, and no event tells of the user -/
theorem audit_trail_broken : ¬ Complete (seen Builtins.sample (str "1.0")
      (trace failingSite.handler (twoScopes.handleEvent .sample loginAudit) 0))
    (planned twoScopes.stops (twoScopes.plansFor .sample loginAudit
      ((exec failingSite.handler (twoScopes.matchesFor .sample loginAudit)
        0).1.toOption.getD []))) := by
  intro h
  have hlen := h.announced.length_eq
  exact absurd hlen (by decide +kernel)

end SecAudit
