import SecAudit.Stores.Memory
import SecAudit.Stores.Alone

/-!
# The in-memory and the tiered store, side by side

* `Interchangeable`  what the two stores agree on in one pair of states: the scopes reported as
                    blocked, the two listings, and that the listings split the blocked scopes;
* `Orderly`     the runs in which no temporary block meets a ban and no entry that has ended is
                    unblocked;
* `Mirrors`, `Twins`  the relation of the in-memory store, and of both stores, to one plain block
                    set;
* `stores_interchangeable`  the stores agree through a run exactly when it is orderly.
-/

set_option linter.unusedVariables false
set_option linter.unusedSectionVars false

namespace SecAudit
open Py Prog

section
variable (b : Builtins) (st : TieredBlockStore)

/-- what the two stores agree on, in one pair of states -/
structure Interchangeable (m : MemoryBlockStore) (w : World) : Prop where
  getActive : ∀ s, NoColon s → ∀ o w', exec backend (st.getActive b s) w = (.ok o, w') →
    (o ≠ none ↔ (m.getActive s).1 ≠ none)
  firstActive : ∀ ss, (∀ s ∈ ss, NoColon s) → ∀ o w',
    exec backend (st.firstActive b ss) w = (.ok o, w') →
      (o ≠ none ↔ (MemoryBlockStore.firstActive ss m).1 ≠ none)
  activeBlocks : ∀ es w', exec backend st.activeBlocks w = (.ok es, w') →
    ∀ s, Lists es s ↔ Lists m.activeBlocks s
  activeTempBlocks : ∀ es w', exec backend (st.activeTempBlocks b) w = (.ok es, w') →
    ∀ s, Lists es s ↔ Lists m.activeTempBlocks s
  memory_split : ∀ s, NoColon s → ¬ (Lists m.activeBlocks s ∧ Lists m.activeTempBlocks s) ∧
    ((Lists m.activeBlocks s ∨ Lists m.activeTempBlocks s) ↔ (m.getActive s).1 ≠ none)
  tiered_split : ∀ es es' w' w'', exec backend st.activeBlocks w = (.ok es, w') →
    exec backend (st.activeTempBlocks b) w = (.ok es', w'') → ∀ s, NoColon s →
      ¬ (Lists es s ∧ Lists es' s) ∧ ∀ o w', exec backend (st.getActive b s) w = (.ok o, w') →
        ((Lists es s ∨ Lists es' s) ↔ o ≠ none)

/-- an unblock removes something from both stores or from neither -/
def SameCount (m : MemoryBlockStore) (w : World) : Step → Prop
  | .call (.unblock s reason revokedBy) => ∀ n w',
    exec backend (st.unblock s reason revokedBy) w = (.ok n, w') → (0 < n ↔ 0 < (m.unblock s).1)
  | _ => True

/-- the stores agree after every step of a run, and on every unblock in it -/
def AgreeThrough : MemoryBlockStore → World → List Step → Prop
  | m, w, [] => True
  | m, w, x :: xs => SameCount st m w x ∧ ∀ m' w', m.step x = some m' →
    stepAlone b st w x = some w' → Interchangeable b st m' w' ∧ AgreeThrough m' w' xs

end

/-- no temporary block takes the place of a ban, and no unblock finds an entry that has ended -/
def MemoryBlockStore.Plainly (m : MemoryBlockStore) : Step → Prop
  | .call (.block s _ (some _)) => ¬ m.HoldsBanned s
  | .call (.unblock s _ _) => ∀ e, m.entry s = some e → e.expired m.now = false
  | _ => True

/-- every step of the run is so, in the state of the in-memory store before it -/
def Orderly : MemoryBlockStore → List Step → Prop
  | m, [] => True
  | m, x :: xs => m.Plainly x ∧ ∀ m', m.step x = some m' → Orderly m' xs

/-- blocks, unblocks, reads and time passing, under scope types without `:` -/
def Sequence (steps : List Step) : Prop :=
  NoColons steps ∧ ∀ x ∈ steps, ∀ q, x ≠ .env (.evict q)

/-! ## the listings of the tiered store -/

section
variable {b : Builtins} {st : TieredBlockStore} {w : World}

/-- the loop of `scan_blocks`, when it returns: the entries that decode, and no change -/
theorem readBlocks_ok (hq : w.faults = []) {ks : List Str} {es : List BlockEntry} {w' : World}
    (h : exec backend (RedisBlockStore.readBlocks b ks) w = (.ok es, w')) :
    w' = w ∧ ∀ e, e ∈ es ↔ ∃ k ∈ ks, ∃ v, w.read k = some v ∧ v ≠ [] ∧ entryFromJson b v = .ok e := by
  induction ks generalizing es w' with
  | nil =>
    obtain ⟨he, rfl⟩ := Prod.mk.inj h
    obtain rfl := Except.ok.inj he
    refine ⟨rfl, fun e => ?_⟩
    simp
  | cons k ks ih =>
    unfold RedisBlockStore.readBlocks at h
    rw [exec_bind, exec_perform] at h
    have hget : backend _ (.get k) w = (if [k].all encodable = true then (.ok (w.read k), w)
        else (.error .unicodeError, w)) := by
      show w.send [k] _ _ = _
      by_cases hk : [k].all encodable = true
      · exact (send_quiet hq hk).trans (if_pos hk).symm
      · unfold World.send
        rw [if_neg hk, if_neg hk]
    rw [hget] at h
    by_cases hk : [k].all encodable = true
    · rw [if_pos hk] at h
      dsimp only at h
      simp only [List.mem_cons, exists_eq_or_imp]
      cases hr : w.read k with
      | none =>
        rw [hr] at h
        obtain ⟨rfl, hes⟩ := ih h
        exact ⟨rfl, fun e => by rw [hes]; simp⟩
      | some v =>
        rw [hr] at h
        cases v with
        | nil =>
          obtain ⟨rfl, hes⟩ := ih h
          exact ⟨rfl, fun e => by rw [hes]; simp⟩
        | cons c v =>
          rw [nonEmpty_some (List.cons_ne_nil c v)] at h
          dsimp only at h
          cases hd : entryFromJson b (c :: v) with
          | error x =>
            rw [hd] at h
            dsimp only at h
            split at h
            · obtain ⟨rfl, hes⟩ := ih h
              refine ⟨rfl, fun e => ?_⟩
              rw [hes]
              simp [hd]
            · cases (Prod.mk.inj h).1
          | ok e0 =>
            rw [hd] at h
            dsimp only at h
            rw [exec_bind] at h
            rcases hx : exec backend (RedisBlockStore.readBlocks b ks) w with ⟨r, w1⟩
            rw [hx] at h
            cases r with
            | error x => cases (Prod.mk.inj h).1
            | ok rest =>
              obtain ⟨he, rfl⟩ := Prod.mk.inj h
              obtain rfl := Except.ok.inj he
              obtain ⟨rfl, hes⟩ := ih hx
              refine ⟨rfl, fun e => ?_⟩
              rw [List.mem_cons, hes]
              simp [hd, eq_comm]
    · rw [if_neg hk] at h
      cases (Prod.mk.inj h).1

theorem scan_pattern (st : RedisBlockStore) (s : BlockScope) :
    (st.keyPrefix ++ str ":block:").isPrefixOf (st.key s) = true := by
  rw [List.isPrefixOf_iff_prefix]
  unfold RedisBlockStore.key
  rw [← List.append_assoc]
  exact List.prefix_append _ _

/-- the sentinel is not a block key -/
theorem scan_warmKey (st : RedisBlockStore) :
    (st.keyPrefix ++ str ":block:").isPrefixOf st.warmKey = false := by
  rw [Bool.eq_false_iff]
  intro h
  rw [List.isPrefixOf_iff_prefix] at h
  unfold RedisBlockStore.warmKey at h
  rw [List.prefix_append_right_inj] at h
  exact absurd h (by decide)

/-- **`scan_blocks`, when it returns, lists the scopes whose key is live** -/
theorem scanBlocks_ok (h : Settled b st NoColon w) {es : List BlockEntry} {w' : World}
    (hx : exec backend (st.redis.scanBlocks b) w = (.ok es, w')) :
    w' = w ∧ ∀ s, Lists es s ↔ NoColon s ∧ (w.read (st.redis.key s)).isSome = true := by
  unfold RedisBlockStore.scanBlocks at hx
  rw [exec_wrap, exec_bind, exec_perform] at hx
  rcases hscan : backend _ (.scan (st.redis.keyPrefix ++ str ":block:")) w with ⟨r, w1⟩
  rw [hscan] at hx
  cases r with
  | error x => cases (Prod.mk.inj hx).1
  | ok keys =>
    dsimp only at hx
    rcases hloop : exec backend (RedisBlockStore.readBlocks b keys) w1 with ⟨r, w2⟩
    rw [hloop] at hx
    cases r with
    | error x => cases (Prod.mk.inj hx).1
    | ok es' =>
      obtain ⟨he, rfl⟩ := Prod.mk.inj hx
      obtain rfl := Except.ok.inj he
      obtain ⟨hkeys, rfl⟩ := Prod.mk.inj (send_quiet_ok h.quiet hscan)
      obtain rfl := Except.ok.inj hkeys
      obtain ⟨rfl, hes⟩ := readBlocks_ok h.quiet hloop
      refine ⟨rfl, fun s => ?_⟩
      unfold Lists
      constructor
      · rintro ⟨e, hm, rfl⟩
        obtain ⟨k, hk, v, hv, hne, hd⟩ := (hes e).mp hm
        have hpre := (List.mem_filter.mp hk).2
        have hwarm : k ≠ st.redis.warmKey := by
          rintro rfl
          rw [scan_warmKey] at hpre
          cases hpre
        obtain ⟨s, a, hn, rfl, henc, c, x, hp⟩ := h.live k v _ hwarm (Int.le_refl _) hv
        obtain ⟨e', hd', hs⟩ := entryFromJson_entryToJson b hp henc
        rw [hd] at hd'
        obtain rfl := Except.ok.inj hd'
        rw [hs]
        exact ⟨hn, Option.isSome_iff_exists.mpr ⟨v, hv⟩⟩
      · rintro ⟨hn, hlive⟩
        obtain ⟨v, hv⟩ := Option.isSome_iff_exists.mp hlive
        obtain ⟨s', a, hn', hk, henc, c, x, hp⟩ :=
          h.live _ v _ (key_ne_warmKey st.redis s) (Int.le_refl _) hv
        obtain rfl := key_injective st.redis hn hn' hk
        obtain ⟨e, hd, hs⟩ := entryFromJson_entryToJson b hp henc
        refine ⟨e, (hes e).mpr ⟨st.redis.key s, ?_, v, hv, entryToJson_ne_nil b hp, hd⟩, hs⟩
        exact List.mem_filter.mpr ⟨ExpMap.mem_liveKeys hv, scan_pattern st.redis s⟩

theorem activeBlocks_ok (hpg : st.pg = true) (h : Settled b st NoColon w) {es : List BlockEntry}
    {w' : World} (hx : exec backend st.activeBlocks w = (.ok es, w')) :
    ∀ s, Lists es s ↔ s ∈ scopesOf w.table.rows := by
  unfold TieredBlockStore.activeBlocks at hx
  rw [if_pos hpg, exec_activeBlocks h.quiet] at hx
  obtain ⟨he, -⟩ := Prod.mk.inj hx
  obtain rfl := Except.ok.inj he
  intro s
  unfold Lists
  rw [@Table.mem_scopesOf_active w.table h.permanent w.now s]
  constructor
  · rintro ⟨e, he, rfl⟩
    obtain ⟨r, hr, rfl⟩ := List.mem_map.mp he
    exact ⟨r, hr, rfl⟩
  · rintro ⟨r, hr, rfl⟩
    exact ⟨r.entry, List.mem_map_of_mem hr, rfl⟩

theorem activeTempBlocks_ok (hpg : st.pg = true) (h : Settled b st NoColon w)
    {es : List BlockEntry} {w' : World}
    (hx : exec backend (st.activeTempBlocks b) w = (.ok es, w')) :
    ∀ s, Lists es s ↔ (NoColon s ∧ (w.read (st.redis.key s)).isSome = true) ∧
      s ∉ scopesOf w.table.rows := by
  unfold TieredBlockStore.activeTempBlocks at hx
  rw [exec_bind] at hx
  rcases hscan : exec backend (st.redis.scanBlocks b) w with ⟨r, w1⟩
  rw [hscan] at hx
  cases r with
  | error x => cases (Prod.mk.inj hx).1
  | ok entries =>
    obtain ⟨rfl, hl⟩ := scanBlocks_ok h hscan
    dsimp only at hx
    rw [if_pos hpg, exec_bind_ok _ (exec_activeBlocks h.quiet)] at hx
    obtain ⟨he, -⟩ := Prod.mk.inj hx
    obtain rfl := Except.ok.inj he
    have hrow : ∀ s : BlockScope, s.pair ∈ ((w1.table.active w1.now).map Row.entry).map
        (fun e => e.scope.pair) ↔ s ∈ scopesOf w1.table.rows := by
      intro s
      rw [@Table.mem_scopesOf_active w1.table h.permanent w1.now s, List.map_map, List.mem_map]
      exact exists_congr fun r => and_congr_right fun _ =>
        ⟨fun hp => BlockScope.pair_injective hp, fun hp => congrArg BlockScope.pair hp⟩
    intro s
    rw [← hl s]
    unfold Lists
    simp only [List.mem_filter, decide_eq_true_eq, hrow]
    constructor
    · rintro ⟨e, ⟨he, hn⟩, rfl⟩
      exact ⟨⟨e, he, rfl⟩, hn⟩
    · rintro ⟨⟨e, he, rfl⟩, hn⟩
      exact ⟨e, ⟨he, hn⟩, rfl⟩

end

/-! ## the in-memory store and the plain block set -/

/-- the store holds what the plain block set holds, and perhaps temporary blocks that have ended -/
structure Mirrors (m : MemoryBlockStore) (p : Plain) : Prop where
  clock : m.now = p.now
  keyed : m.Keyed
  banned : ∀ s, NoColon s → (m.HoldsBanned s ↔ s ∈ p.banned)
  temp : ∀ s x, NoColon s → s ∉ p.banned → p.now < x → (m.HoldsTemp s x ↔ p.temp s = some x)

section
variable {m m' : MemoryBlockStore} {p : Plain} {s : BlockScope}

theorem mirrors_empty (t : Int) : Mirrors (.empty t) (.empty t) where
  clock := rfl
  keyed := nofun
  banned s _ := ⟨nofun, fun h => absurd h (Set.notMem_empty s)⟩
  temp s x _ _ _ := ⟨nofun, nofun⟩

theorem Mirrors.blocked (h : Mirrors m p) (hs : NoColon s) :
    (m.getActive s).1 ≠ none ↔ p.Blocked s := by
  rw [MemoryBlockStore.getActive_iff]
  unfold Plain.Blocked Plain.BlockedAt
  rw [h.banned s hs]
  by_cases hb : s ∈ p.banned
  · exact iff_of_true (.inl hb) (.inl hb)
  · refine or_congr_right (exists_congr fun x => ?_)
    rw [h.clock]
    constructor
    · rintro ⟨hx, hlt⟩
      exact ⟨(h.temp s x hs hb hlt).mp hx, hlt⟩
    · rintro ⟨hx, hlt⟩
      exact ⟨(h.temp s x hs hb hlt).mpr hx, hlt⟩

/-- a read removes nothing but a temporary block that has ended -/
theorem Mirrors.getActive (h : Mirrors m p) (hs : NoColon s) : Mirrors (m.getActive s).2 p where
  clock := (MemoryBlockStore.now_getActive m s).trans h.clock
  keyed := h.keyed.getActive s
  banned s' hs' := by
    rw [← h.banned s' hs']
    unfold MemoryBlockStore.HoldsBanned
    rcases MemoryBlockStore.entry_getActive (m := m) hs hs' with he | ⟨he, x, ⟨e, hm, hx⟩, -⟩
    · rw [he]
    · rw [he, hm]
      refine iff_of_false nofun ?_
      rintro ⟨e', he', hn⟩
      obtain rfl := Option.some.inj he'
      rw [hx] at hn
      cases hn
  temp s' x' hs' hb hlt := by
    rw [← h.temp s' x' hs' hb hlt]
    unfold MemoryBlockStore.HoldsTemp
    rcases MemoryBlockStore.entry_getActive (m := m) hs hs' with he | ⟨he, x, ⟨e, hm, hx⟩, hle⟩
    · rw [he]
    · rw [he, hm]
      refine iff_of_false nofun ?_
      rintro ⟨e', he', hx'⟩
      obtain rfl := Option.some.inj he'
      rw [hx] at hx'
      obtain rfl := Option.some.inj hx'
      rw [h.clock] at hle
      omega

theorem Mirrors.firstActive (h : Mirrors m p) {ss : List BlockScope} (hs : ∀ s ∈ ss, NoColon s) :
    ((MemoryBlockStore.firstActive ss m).1 ≠ none ↔ ∃ s ∈ ss, p.Blocked s) ∧
      Mirrors (MemoryBlockStore.firstActive ss m).2 p := by
  induction ss generalizing m with
  | nil => exact ⟨by simp [MemoryBlockStore.firstActive], h⟩
  | cons s rest ih =>
    have hb := h.blocked (hs s List.mem_cons_self)
    have h' := h.getActive (hs s List.mem_cons_self)
    unfold MemoryBlockStore.firstActive
    rcases hr : m.getActive s with ⟨o, m1⟩
    rw [hr] at hb h'
    cases o with
    | some e =>
      exact ⟨iff_of_true nofun ⟨s, List.mem_cons_self, hb.mp nofun⟩, h'⟩
    | none =>
      obtain ⟨h1, h2⟩ := ih h' fun s' hs' => hs s' (List.mem_cons_of_mem _ hs')
      refine ⟨h1.trans ?_, h2⟩
      have hnot : ¬ p.Blocked s := fun hbs => hb.mpr hbs rfl
      simp only [List.mem_cons, exists_eq_or_imp, hnot, false_or]

theorem Mirrors.put (h : Mirrors m p) (hs : NoColon s) {e : BlockEntry} (he : e.scope = s)
    {q : Plain} (hnow : q.now = p.now) (hban : s ∈ q.banned ↔ e.expiresAt = none)
    (htemp : ∀ x, e.expiresAt = some x → q.temp s = some x)
    (hother : ∀ s', s' ≠ s → (s' ∈ q.banned ↔ s' ∈ p.banned) ∧ q.temp s' = p.temp s') :
    Mirrors (m.put s e) q where
  clock := h.clock.trans hnow.symm
  keyed := h.keyed.put hs he
  banned s' hs' := by
    unfold MemoryBlockStore.HoldsBanned
    rw [MemoryBlockStore.entry_put hs hs']
    by_cases heq : s' = s
    · subst heq
      simp [hban]
    · rw [if_neg heq, (hother s' heq).1, ← h.banned s' hs']
      rfl
  temp s' x hs' hb hlt := by
    unfold MemoryBlockStore.HoldsTemp
    rw [MemoryBlockStore.entry_put hs hs']
    by_cases heq : s' = s
    · subst heq
      rw [if_pos rfl]
      rw [hban] at hb
      obtain ⟨y, hy⟩ := Option.ne_none_iff_exists'.mp hb
      rw [htemp y hy]
      simp [hy]
    · rw [(hother s' heq).1] at hb
      rw [if_neg heq, (hother s' heq).2, ← h.temp s' x hs' hb (hnow ▸ hlt)]
      rfl

/-- **one step of the in-memory store is a step of the plain block set**, if no temporary block
takes the place of a ban -/
theorem Mirrors.step (h : Mirrors m p) {x : Step} (key : BlockScope → Str)
    (hx : ∀ s ∈ x.scopes, NoColon s) (hevict : ∀ q, x ≠ .env (.evict q)) (hc : m.Plainly x)
    (hm : m.step x = some m') : Mirrors m' (p.step key x) := by
  cases x with
  | env x =>
    cases x with
    | advance d =>
      obtain rfl := Option.some.inj hm
      refine ⟨congrArg (· + (d : Int)) h.clock, h.keyed, h.banned, fun s x hs hb hlt => ?_⟩
      have hlt' : p.now + d < x := hlt
      exact h.temp s x hs hb (by omega)
    | evict q => exact absurd rfl (hevict q)
  | call o =>
    cases o with
    | getActive s =>
      obtain rfl := Option.some.inj hm
      exact h.getActive (hx s (List.mem_singleton_self s))
    | firstActive ss =>
      obtain rfl := Option.some.inj hm
      exact (h.firstActive hx).2
    | unblock s reason revokedBy =>
      obtain rfl := Option.some.inj hm
      have hs := hx s (List.mem_singleton_self s)
      refine ⟨h.clock, h.keyed.pop s, fun s' hs' => ?_, fun s' x hs' hb hlt => ?_⟩
      · unfold MemoryBlockStore.HoldsBanned
        show (∃ e, (m.pop s).entry s' = some e ∧ _) ↔ s' ∈ p.banned \ {s}
        rw [MemoryBlockStore.entry_pop hs hs', Set.mem_sdiff, Set.mem_singleton_iff]
        by_cases heq : s' = s
        · simp [heq]
        · rw [if_neg heq, ← h.banned s' hs', and_iff_left heq]
          rfl
      · unfold MemoryBlockStore.HoldsTemp
        show (∃ e, (m.pop s).entry s' = some e ∧ _) ↔ Function.update p.temp s none s' = some x
        rw [MemoryBlockStore.entry_pop hs hs']
        by_cases heq : s' = s
        · simp [heq]
        · have hb' : s' ∉ p.banned := fun hb' => hb ⟨hb', heq⟩
          rw [if_neg heq, Function.update_of_ne heq, ← h.temp s' x hs' hb' hlt]
          rfl
    | block s a ttl =>
      have hs := hx s (List.mem_singleton_self s)
      cases ttl with
      | none =>
        obtain rfl := Option.some.inj hm
        refine h.put hs rfl rfl (iff_of_true (Set.mem_insert s _) rfl) nofun fun s' hne => ⟨?_, rfl⟩
        exact Set.mem_insert_iff.trans (or_iff_right hne)
      | some n =>
        have hb : s ∉ p.banned := fun hb => hc ((h.banned s hs).mpr hb)
        obtain rfl := MemoryBlockStore.step_block_temp hm
        refine h.put hs rfl rfl (iff_of_false hb nofun) (fun x hx => ?_) fun s' hne =>
          ⟨Iff.rfl, Function.update_of_ne hne _ _⟩
        obtain rfl := Option.some.inj hx
        show Function.update p.temp s (some (p.now + seconds n)) s = some (m.now + seconds n)
        rw [Function.update_self, h.clock]

end

/-! ## both stores -/

structure Twins (b : Builtins) (st : TieredBlockStore) (m : MemoryBlockStore) (w : World)
    (p : Plain) : Prop where
  rel : Rel b st w p
  settled : Settled b st NoColon w
  mirrors : Mirrors m p

section
variable {b : Builtins} {st : TieredBlockStore} {m m' : MemoryBlockStore} {w w' : World} {p : Plain}
  {s : BlockScope}

theorem twins_empty (b : Builtins) (st : TieredBlockStore) (t : Int) :
    Twins b st (.empty t) (World.empty t) (Plain.empty t) :=
  ⟨rel_empty b st t, settled_empty b st NoColon t, mirrors_empty t⟩

/-- a scope has a live key when it is blocked, unless its cache entry has ended -/
theorem Twins.live_iff (h : Twins b st m w p) (hs : NoColon s) (hb : s ∉ p.banned) :
    (w.read (st.redis.key s)).isSome = true ↔ p.Blocked s := by
  rw [Option.isSome_iff_exists]
  unfold Plain.Blocked Plain.BlockedAt
  rw [or_iff_right hb]
  constructor
  · rintro ⟨v, hv⟩
    obtain ⟨-, s', hs', hk, hb'⟩ := h.rel.live _ v w.now (key_ne_warmKey st.redis s)
      (Int.le_refl _) hv
    obtain rfl := key_injective st.redis hs hs' hk
    have := h.rel.clock
    exact this ▸ hb'.resolve_left hb
  · rintro ⟨x, hx, hlt⟩
    exact h.rel.temp s x w.now hs hb hx (Int.le_refl _) (by rw [h.rel.clock]; exact hlt)

theorem Twins.lists_activeBlocks (h : Twins b st m w p) (s : BlockScope) :
    s ∈ scopesOf w.table.rows ↔ Lists m.activeBlocks s := by
  rw [h.rel.rows]
  constructor
  · intro hb
    have hs := (h.rel.known s hb).1
    rw [MemoryBlockStore.lists_activeBlocks h.mirrors.keyed hs, h.mirrors.banned s hs]
    exact hb
  · intro hl
    have hs := h.mirrors.keyed.lists_noColon hl
    rwa [MemoryBlockStore.lists_activeBlocks h.mirrors.keyed hs, h.mirrors.banned s hs] at hl

theorem Twins.lists_activeTempBlocks (h : Twins b st m w p) (s : BlockScope) :
    ((NoColon s ∧ (w.read (st.redis.key s)).isSome = true) ∧ s ∉ scopesOf w.table.rows) ↔
      Lists m.activeTempBlocks s := by
  -- what is blocked and not listed as a ban is listed as temporary
  have split : NoColon s → (Lists m.activeTempBlocks s ↔ p.Blocked s ∧ s ∉ p.banned) := by
    intro hs
    obtain ⟨h1, h2⟩ := MemoryBlockStore.listings_split h.mirrors.keyed hs
    rw [h.mirrors.blocked hs] at h2
    rw [← h.rel.rows, h.lists_activeBlocks, ← h2]
    tauto
  constructor
  · rintro ⟨⟨hs, hlive⟩, hb⟩
    rw [h.rel.rows] at hb
    exact (split hs).mpr ⟨(h.live_iff hs hb).mp hlive, hb⟩
  · intro hl
    have hs := h.mirrors.keyed.lists_noColon hl
    obtain ⟨hbl, hb⟩ := (split hs).mp hl
    exact ⟨⟨hs, (h.live_iff hs hb).mpr hbl⟩, fun hr => hb ((h.rel.rows s).mp hr)⟩

/-- **twin stores are interchangeable** -/
theorem Twins.interchangeable (hpg : st.pg = true) (h : Twins b st m w p) :
    Interchangeable b st m w := by
  have hread : ∀ s, NoColon s → ∀ o w', exec backend (st.getActive b s) w = (.ok o, w') →
      (o ≠ none ↔ (m.getActive s).1 ≠ none) := by
    intro s hs o w' hx
    have hone : ∀ s' ∈ [s], NoColon s' := by simpa using hs
    rw [h.mirrors.blocked hs, (h.rel.answer hone (reads_getActive hpg fun hw =>
      hw.2 s (List.mem_singleton_self s))).1 o w' hx]
    simp
  refine ⟨hread, fun ss hs o w' hx => ?_, fun es w' hx s => ?_, fun es w' hx s => ?_,
    fun s hs => MemoryBlockStore.listings_split h.mirrors.keyed hs,
    fun es es' w' w'' hx hx' s hs => ?_⟩
  · rw [(h.mirrors.firstActive hs).1,
      (h.rel.answer hs (reads_firstActive hpg fun hw => hw.2)).1 o w' hx]
  · rw [activeBlocks_ok hpg h.settled hx, h.lists_activeBlocks]
  · rw [activeTempBlocks_ok hpg h.settled hx, h.lists_activeTempBlocks]
  · rw [activeBlocks_ok hpg h.settled hx, h.lists_activeBlocks,
      activeTempBlocks_ok hpg h.settled hx', h.lists_activeTempBlocks]
    obtain ⟨h1, h2⟩ := MemoryBlockStore.listings_split h.mirrors.keyed hs
    exact ⟨h1, fun o w' hx => h2.trans (hread s hs o w' hx).symm⟩

/-- the tiered store counts something removed when the scope was blocked -/
theorem Twins.unblock_tiered (hpg : st.pg = true) (h : Twins b st m w p) (hs : NoColon s)
    {reason revokedBy : Str} {n : Int}
    (hx : exec backend (st.unblock s reason revokedBy) w = (.ok n, w')) :
    0 < n ↔ p.Blocked s := by
  obtain ⟨rfl, -⟩ := unblock_ok hpg hx
  have hrows : 0 < (w.table.revoke s reason revokedBy w.now).1 ↔ s ∈ p.banned := by
    rw [← h.rel.rows, Table.mem_scopesOf]
    show 0 < ((w.table.rows.filter (Row.blocks s)).length : Int) ↔ _
    rw [Int.natCast_pos, List.length_pos_iff_exists_mem]
    refine exists_congr fun r => ?_
    rw [List.mem_filter, Table.blocks_iff, and_comm (a := r.scope = s)]
  have hnonneg : 0 ≤ (w.table.revoke s reason revokedBy w.now).1 := Int.natCast_nonneg _
  by_cases hb : s ∈ p.banned
  · have := hrows.mpr hb
    refine iff_of_true ?_ (.inl hb)
    split <;> omega
  · have hz : (w.table.revoke s reason revokedBy w.now).1 = 0 := by
      have hnot : ¬ 0 < (w.table.revoke s reason revokedBy w.now).1 := fun hp => hb (hrows.mp hp)
      omega
    rw [hz, ← h.live_iff hs hb]
    split <;> simp_all

/-- **the counts of an unblock agree exactly when it does not find an entry that has ended** -/
theorem Twins.sameCount_iff (hpg : st.pg = true) (h : Twins b st m w p) (hs : NoColon s)
    {reason revokedBy : Str} {n : Int}
    (hx : exec backend (st.unblock s reason revokedBy) w = (.ok n, w')) :
    (0 < n ↔ 0 < (m.unblock s).1) ↔ m.Plainly (.call (.unblock s reason revokedBy)) := by
  rw [h.unblock_tiered hpg hs hx, ← h.mirrors.blocked hs]
  unfold MemoryBlockStore.getActive MemoryBlockStore.unblock MemoryBlockStore.Plainly
  cases hm : m.entry s with
  | none => simp [hm]
  | some e =>
    cases he : e.expired m.now with
    | true => simp [hm, he]
    | false => simp [hm, he]

theorem twins_step (hpg : st.pg = true) (h : Twins b st m w p) {x : Step}
    (hx : ∀ s ∈ x.scopes, NoColon s) (hevict : ∀ q, x ≠ .env (.evict q)) (hc : m.Plainly x)
    (hm : m.step x = some m') (hw : stepAlone b st w x = some w') :
    Twins b st m' w' (p.step st.redis.key x) :=
  ⟨rel_step hpg h.rel hx hw, settled_step hpg h.settled hx hw,
    h.mirrors.step st.redis.key hx hevict hc hm⟩

/-- a step after which the stores agree, and whose counts agree, was plain -/
theorem Twins.plainly (hpg : st.pg = true) (h : Twins b st m w p) {x : Step}
    (hx : ∀ s ∈ x.scopes, NoColon s) (hm : m.step x = some m')
    (hw : stepAlone b st w x = some w') (hcount : SameCount st m w x)
    (hi : Interchangeable b st m' w') : m.Plainly x := by
  cases x with
  | env x => trivial
  | call o =>
    cases o with
    | getActive s => trivial
    | firstActive ss => trivial
    | unblock s reason revokedBy =>
      obtain ⟨a, ha⟩ := stepAlone_call hw
      obtain ⟨n, hn, -⟩ := exec_answer ha
      exact (h.sameCount_iff hpg (hx s (List.mem_singleton_self s)) hn).mp (hcount n _ hn)
    | block s a ttl =>
      cases ttl with
      | none => trivial
      | some n =>
        have hs := hx s (List.mem_singleton_self s)
        intro hban
        -- Postgres still has the row, and the in-memory store an entry that ends
        have hrow := (h.mirrors.banned s hs).mp hban
        have hrel := rel_step hpg h.rel hx hw
        have hset := settled_step hpg h.settled hx hw
        have hexec : exec backend st.activeBlocks w'
            = (.ok ((w'.table.active w'.now).map Row.entry), w') := by
          unfold TieredBlockStore.activeBlocks
          rw [if_pos hpg, exec_activeBlocks hset.quiet]
        have hl := (hi.activeBlocks _ _ hexec s).mp
          ((activeBlocks_ok hpg hset hexec s).mpr ((hrel.rows s).mpr hrow))
        obtain rfl := MemoryBlockStore.step_block_temp hm
        rw [MemoryBlockStore.lists_activeBlocks (h.mirrors.keyed.put hs rfl) hs] at hl
        obtain ⟨e, he, hn⟩ := hl
        rw [MemoryBlockStore.entry_put hs hs, if_pos rfl] at he
        obtain rfl := Option.some.inj he
        cases hn

theorem agreeThrough_iff (hpg : st.pg = true) (h : Twins b st m w p) {steps : List Step}
    (hseq : Sequence steps) (hm : m.run steps = some m') (hw : runAlone b st w steps = some w') :
    AgreeThrough b st m w steps ↔ Orderly m steps := by
  induction steps generalizing m w p with
  | nil => exact Iff.rfl
  | cons x xs ih =>
    obtain ⟨m1, hm1, hm2⟩ := Option.bind_eq_some_iff.mp hm
    obtain ⟨w1, hw1, hw2⟩ := Option.bind_eq_some_iff.mp hw
    have hx : ∀ s ∈ x.scopes, NoColon s := hseq.1 x List.mem_cons_self
    have hxs : Sequence xs := ⟨fun y hy => hseq.1 y (List.mem_cons_of_mem _ hy),
      fun y hy => hseq.2 y (List.mem_cons_of_mem _ hy)⟩
    have next : m.Plainly x → Twins b st m1 w1 (p.step st.redis.key x) := fun hc =>
      twins_step hpg h hx (hseq.2 x List.mem_cons_self) hc hm1 hw1
    constructor
    · rintro ⟨hcount, hrest⟩
      obtain ⟨hi, hrest⟩ := hrest m1 w1 hm1 hw1
      have hc := h.plainly hpg hx hm1 hw1 hcount hi
      refine ⟨hc, fun m2 hm2' => ?_⟩
      obtain rfl := Option.some.inj (hm1.symm.trans hm2')
      exact (ih (next hc) hxs hm2 hw2).mp hrest
    · rintro ⟨hc, hrest⟩
      refine ⟨?_, fun m2 w2 hm2' hw2' => ?_⟩
      · cases x with
        | env x => trivial
        | call o =>
          cases o with
          | block s a ttl => trivial
          | getActive s => trivial
          | firstActive ss => trivial
          | unblock s reason revokedBy =>
            intro n w2 hn
            exact (h.sameCount_iff hpg (hx s (List.mem_singleton_self s)) hn).mpr hc
      · obtain rfl := Option.some.inj (hm1.symm.trans hm2')
        obtain rfl := Option.some.inj (hw1.symm.trans hw2')
        exact ⟨(next hc).interchangeable hpg, (ih (next hc) hxs hm2 hw2).mpr (hrest m1 hm1)⟩

end

/-- **The in-memory and the tiered store agree through a run exactly when it is orderly.**  After
every step they report the same scopes as blocked and list the same ones, and every unblock
removes something from both or from neither, if and only if no temporary block takes the place of
a ban in the in-memory store and no unblock finds an entry there that has ended. -/
theorem stores_interchangeable (b : Builtins) (st : TieredBlockStore) (hpg : st.pg = true) (t : Int)
    (steps : List Step) (hseq : Sequence steps) (m : MemoryBlockStore) (w : World)
    (hm : (MemoryBlockStore.empty t).run steps = some m)
    (hw : runAlone b st (World.empty t) steps = some w) :
    AgreeThrough b st (.empty t) (World.empty t) steps ↔ Orderly (.empty t) steps :=
  agreeThrough_iff hpg (twins_empty b st t) hseq hm hw

/-- a temporary block, a ban over it, and an unblock -/
def reblocked : List Step :=
  [.call (.block .sample {} (some 60)), .call (.block .sample {} none),
    .call (.unblock .sample [] [])]

theorem stores_interchangeable_reblocked :
    AgreeThrough .sample .sample (.empty 0) (World.empty 0) reblocked := by
  have hm : ((MemoryBlockStore.empty 0).run reblocked).isSome = true := by decide +kernel
  have hw : (runAlone .sample .sample (World.empty 0) reblocked).isSome = true := by decide +kernel
  obtain ⟨m, hm⟩ := Option.isSome_iff_exists.mp hm
  obtain ⟨w, hw⟩ := Option.isSome_iff_exists.mp hw
  have hseq : Sequence reblocked := by
    refine ⟨by decide, fun x hx q => ?_⟩
    simp only [reblocked, List.mem_cons, List.not_mem_nil, or_false] at hx
    rcases hx with rfl | rfl | rfl <;> exact nofun
  refine (stores_interchangeable .sample .sample rfl 0 reblocked hseq m w hm hw).mpr ?_
  refine ⟨?_, fun m1 h1 => ⟨trivial, fun m2 h2 => ⟨fun e he => ?_, fun _ _ => trivial⟩⟩⟩
  · rintro ⟨e, he, -⟩
    cases he
  · obtain rfl := MemoryBlockStore.step_block_temp h1
    obtain rfl := Option.some.inj h2
    obtain rfl := Option.some.inj he
    rfl

/-- a ban, a block of a minute over it, and the minute over -/
def replaced : List Step :=
  [.call (.block .sample {} none), .call (.block .sample {} (some 60)), .env (.advance 60000)]

/-- **the stores differ**: the in-memory store has dropped the ban, the tiered store has not -/
theorem stores_differ : ∃ m w, (MemoryBlockStore.empty 0).run replaced = some m ∧
    runAlone .sample .sample (World.empty 0) replaced = some w ∧ (m.getActive .sample).1 = none ∧
      ∃ o w', exec backend (TieredBlockStore.sample.getActive .sample .sample) w = (.ok o, w') ∧
        o ≠ none := by
  have hmem : (((MemoryBlockStore.empty 0).run replaced).any fun m =>
      (m.getActive .sample).1.isNone) = true := by decide +kernel
  have htiered : ((runAlone .sample .sample (World.empty 0) replaced).any fun w =>
      (exec backend (TieredBlockStore.sample.getActive .sample .sample) w).1.toOption.any
        Option.isSome) = true := by decide +kernel
  obtain ⟨m, hm, hnone⟩ := (Option.any_eq_true _ _).mp hmem
  obtain ⟨w, hw, hsome⟩ := (Option.any_eq_true _ _).mp htiered
  refine ⟨m, w, hm, hw, Option.isNone_iff_eq_none.mp hnone, ?_⟩
  rcases hx : exec backend (TieredBlockStore.sample.getActive .sample .sample) w with ⟨r, w'⟩
  rw [hx] at hsome
  cases r with
  | error x => cases hsome
  | ok o => exact ⟨o, w', rfl, Option.ne_none_iff_isSome.mpr hsome⟩

end SecAudit
