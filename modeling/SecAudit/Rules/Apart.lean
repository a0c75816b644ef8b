import SecAudit.Rules.History
import SecAudit.Stores.Apart

/-!
# Two scopes in the stores, the histories and the keys of an event

A scope is looked up by one text, the scope and the key with a colon between, and both may hold
colons of their own.

* `HistoryApart`    a query for `k'` answers with rows that were appended under `k'`;
* `ExtractApart`    `extract_scope_keys` keeps `k'` whenever an extractor finds it;
* `Apart`           these two, and the two block stores: `k` does nothing to `k'`;
* `apart_iff`       it is so exactly when `as_string` tells the two keys apart.
-/

set_option linter.unusedVariables false
set_option linter.unusedSectionVars false

namespace SecAudit
open Py Prog

/-! ## the history -/

/-- no third key of the append reads as `k'` -/
def Append.Between (k k' : ScopeKey) (a : Append) : Prop :=
  ∀ x ∈ a.scopeKeys, x.asString = k'.asString → x = k ∨ x = k'

/-- the row is that of the append, as JSON gives it back -/
def Append.ReadAs (a : Append) (row : List (Str × Json)) : Prop :=
  ∃ text, dumpsRow a.entry = .ok text ∧ loads text = some (.obj row)

/-- a query for `k'` answers with rows that were appended under `k'` -/
structure HistoryApart (k k' : ScopeKey) : Prop where
  memory : ∀ (store : MemoryEventHistoryStore) (b : Builtins) (num : FloatLit → ℚ)
    (run : List Append), (∀ a ∈ run, a.Between k k') →
    ∀ types since limit, ∀ row ∈ MemoryEventHistoryStore.query b num (store.after run) k'.asString
      types since limit, ∃ a ∈ run, k' ∈ a.scopeKeys ∧ row = a.entry
  redis : ∀ (store : RedisEventHistoryStore) (b : Builtins) (num : FloatLit → ℚ)
    (run : List Append), (∀ a ∈ run, a.Between k k') →
    ∀ now types since limit rows, store.query b now (store.after num run) k'.asString types since
      limit = .ok rows → ∀ row ∈ rows, ∃ a ∈ run, k' ∈ a.scopeKeys ∧ a.ReadAs row

/-- the keys that do not read as `k'`, with `k` and `k'` -/
def fewLike (k k' : ScopeKey) : Set ScopeKey :=
  {x | x.asString = k'.asString → x = k ∨ x = k'}

theorem eq_of_fewLike {k k' x : ScopeKey} (h : k.asString ≠ k'.asString) (hx : x ∈ fewLike k k')
    (he : x.asString = k'.asString) : x = k' := by
  rcases hx he with rfl | rfl
  · exact absurd he h
  · rfl

namespace MemoryEventHistoryStore

section
variable {store : MemoryEventHistoryStore} {S : Set ScopeKey} {run : List Append}

/-- the rows under each key -/
def held (events : MemoryHistory) (k : Str) : Set (Dict Str Json) :=
  {row | row ∈ (events.get k).getD []}

/-- the row is that of an append under the key -/
def Under (run : List Append) (k : ScopeKey) (row : Dict Str Json) : Prop :=
  ∃ a ∈ run, k ∈ a.scopeKeys ∧ row = a.entry

theorem mem_lastSlice {α : Type} {n : Nat} {l : List α} {x : α} (h : x ∈ lastSlice n l) : x ∈ l := by
  unfold lastSlice at h
  split at h
  · exact h
  · exact List.mem_of_mem_drop h

theorem gained_appendOne {events : MemoryHistory} {a : Append} (ha : a ∈ run) {k : ScopeKey}
    (hk : k ∈ a.scopeKeys) (hS : k ∈ S) :
    Gained ScopeKey.asString (Under run) S (held events)
      (held (store.appendOne a.entry events k.asString)) := by
  intro k1 row hrow
  have hget : row ∈ ((store.appendOne a.entry events k.asString).get k1).getD [] := hrow
  unfold appendOne at hget
  rw [Dict.get_set] at hget
  split at hget
  · rename_i h
    subst h
    rcases List.mem_append.mp (mem_lastSlice hget) with hm | hm
    · exact .inl hm
    · exact .inr ⟨k, hS, rfl, a, ha, hk, List.mem_singleton.mp hm⟩
  · exact .inl hget

theorem gained_append {events : MemoryHistory} {a : Append} (ha : a ∈ run)
    (hS : ∀ k ∈ a.scopeKeys, k ∈ S) :
    Gained ScopeKey.asString (Under run) S (held events) (held (store.append events a)) := by
  have hfold : Gained ScopeKey.asString (Under run) S (held events)
      (held (a.scopeKeys.foldl (fun events k => store.appendOne a.entry events k.asString)
        events)) :=
    @Gained.foldl _ _ _ _ _ _ _ S held _ (fun k => k ∈ a.scopeKeys)
      (fun events k hk => gained_appendOne ha hk (hS k hk)) a.scopeKeys events fun k hk => hk
  unfold append Append.keys
  rw [List.foldl_map]
  refine hfold.trans ?_
  -- the oldest keys may go
  refine Gained.of_subset fun k row hrow => ?_
  have hget : row ∈ ((Dict.dropFirst _ _).get k).getD [] := hrow
  rw [Dict.get_dropFirst] at hget
  split at hget
  · cases hget
  · exact hget

theorem gained_after (hS : ∀ a ∈ run, ∀ k ∈ a.scopeKeys, k ∈ S) :
    Gained ScopeKey.asString (Under run) S (held .empty) (held (store.after run)) :=
  @Gained.foldl _ _ _ _ _ _ _ S held _ (fun a => a ∈ run)
    (fun events a ha => gained_append ha (hS a ha)) run .empty fun a ha => ha

theorem mem_held_of_query {b : Builtins} {num : FloatLit → ℚ} {events : MemoryHistory} {k : Str}
    {types : Option (List Str)} {since : ℚ} {limit : Nat} {row : Dict Str Json}
    (h : row ∈ query b num events k types since limit) : row ∈ held events k :=
  (List.mem_filter.mp (List.mem_reverse.mp (List.mem_of_mem_take h))).1

end

end MemoryEventHistoryStore

namespace RedisEventHistoryStore

section
variable {store : RedisEventHistoryStore} {num : FloatLit → ℚ} {S : Set ScopeKey}
  {run : List Append}

/-- the members of the sorted set under each key -/
def held (store : RedisEventHistoryStore) (db : RedisHistory) (k : Str) : Set Str :=
  {raw | ∃ w, db (store.key k) = some w ∧ ∃ score, (score, raw) ∈ w.value}

/-- the member is that of an append under the key -/
def Under (run : List Append) (k : ScopeKey) (raw : Str) : Prop :=
  ∃ a ∈ run, k ∈ a.scopeKeys ∧ ∃ text, dumpsRow a.entry = .ok text ∧
    raw = a.uuid.hex ++ (str ":" ++ text)

theorem mem_insert {e f : ℚ × Str} : ∀ {z : SortedSet}, f ∈ SortedSet.insert e z → f = e ∨ f ∈ z
  | [], h => .inl (List.mem_singleton.mp h)
  | g :: z, h => by
    unfold SortedSet.insert at h
    split at h
    · rcases List.mem_cons.mp h with rfl | h
      · exact .inr List.mem_cons_self
      · exact (mem_insert h).imp_right (List.mem_cons_of_mem _)
    · exact List.mem_cons.mp h

theorem mem_appendScript {score floor : ℚ} {member : Str} {cap : Nat} {z : SortedSet}
    {e : ℚ × Str} (h : e ∈ SortedSet.appendScript score member floor cap z) :
    e = (score, member) ∨ e ∈ z := by
  have hadd : e ∈ SortedSet.add score member (z.filter fun e => decide (floor < e.1)) := by
    unfold SortedSet.appendScript at h
    dsimp only at h
    split at h
    · exact List.mem_of_mem_drop h
    · exact h
  unfold SortedSet.add at hadd
  exact (mem_insert hadd).imp_right fun h => (List.mem_filter.mp (List.mem_filter.mp h).1).1

theorem mem_setOf {now : ℚ} {db : RedisHistory} {k : Str} {e : ℚ × Str}
    (h : e ∈ store.setOf now db k) : e.2 ∈ store.held db k := by
  unfold setOf at h
  cases hl : Windows.live now db (store.key k) with
  | none =>
    rw [hl] at h
    cases h
  | some w =>
    rw [hl] at h
    exact ⟨w, (Windows.live_eq_some.mp hl).1, e.1, h⟩

theorem gained_appendTo {db : RedisHistory} {a : Append} (ha : a ∈ run) {text : Str}
    (ht : dumpsRow a.entry = .ok text) {k : ScopeKey} (hk : k ∈ a.scopeKeys) (hS : k ∈ S) :
    Gained ScopeKey.asString (Under run) S (store.held db)
      (store.held (store.appendTo num a (a.uuid.hex ++ (str ":" ++ text)) db k.asString)) := by
  rintro k1 raw ⟨w, hw, score, hm⟩
  unfold appendTo at hw
  rw [Function.update_apply] at hw
  split at hw
  · rename_i h
    obtain rfl := key_injective store h
    obtain rfl := Option.some.inj hw
    rcases mem_appendScript hm with he | he
    · exact .inr ⟨k, hS, rfl, a, ha, hk, text, ht, (Prod.mk.inj he).2⟩
    · exact .inl (mem_setOf he)
  · exact .inl ⟨w, hw, score, hm⟩

theorem gained_appendEach {a : Append} (ha : a ∈ run) {text : Str}
    (ht : dumpsRow a.entry = .ok text) : ∀ {ks : List ScopeKey} {db : RedisHistory},
    (∀ k ∈ ks, k ∈ a.scopeKeys ∧ k ∈ S) →
    Gained ScopeKey.asString (Under run) S (store.held db)
      (store.held (store.appendEach num a (a.uuid.hex ++ (str ":" ++ text))
        (ks.map ScopeKey.asString) db).2)
  | [], db, _ => .refl _
  | k :: ks, db, h => by
    obtain ⟨hk, hS⟩ := h k List.mem_cons_self
    rw [List.map_cons]
    unfold appendEach
    split
    · exact (gained_appendTo ha ht hk hS).trans
        (gained_appendEach ha ht fun x hx => h x (List.mem_cons_of_mem _ hx))
    · exact .refl _

theorem gained_after (hS : ∀ a ∈ run, ∀ k ∈ a.scopeKeys, k ∈ S) :
    Gained ScopeKey.asString (Under run) S (store.held fun _ => none)
      (store.held (store.after num run)) := by
  refine @Gained.foldl _ _ _ _ _ _ _ S store.held _ (fun a => a ∈ run) (fun db a ha => ?_) run _
    fun a ha => ha
  unfold append
  cases ht : dumpsRow a.entry with
  | error e => exact .refl _
  | ok text => exact gained_appendEach ha ht fun k hk => ⟨hk, hS a ha k hk⟩

/-- a row that is collected is that of a member -/
theorem mem_collect {b : Builtins} {types : Option (List Str)} {limit : Nat}
    {row : List (Str × Json)} : ∀ {l : List Str} {rows : List (List (Str × Json))},
    row ∈ collect b types limit l rows → row ∈ rows ∨ ∃ raw ∈ l, rowOf raw = some row
  | [], rows, h => .inl h
  | raw :: l, rows, h => by
    have hlater : ∀ rows', row ∈ collect b types limit l rows' →
        row ∈ rows' ∨ ∃ raw' ∈ raw :: l, rowOf raw' = some row := by
      intro rows' h'
      refine (mem_collect h').imp_right ?_
      rintro ⟨raw', hm, hr⟩
      exact ⟨raw', List.mem_cons_of_mem _ hm, hr⟩
    unfold collect at h
    cases hr : rowOf raw with
    | none =>
      rw [hr] at h
      exact hlater rows h
    | some r =>
      rw [hr] at h
      dsimp only at h
      have hlast : row ∈ rows ++ [r] → row ∈ rows ∨ ∃ raw' ∈ raw :: l, rowOf raw' = some row := by
        intro hm
        refine (List.mem_append.mp hm).imp_right fun he => ?_
        exact ⟨raw, List.mem_cons_self, by rw [hr, List.mem_singleton.mp he]⟩
      split at h
      · split at h
        · exact hlast h
        · rcases hlater _ h with hm | hm
          · exact hlast hm
          · exact .inr hm
      · exact hlater rows h

/-- a row that a query answers with is that of a member under its key -/
theorem mem_held_of_query {b : Builtins} {now since : ℚ} {db : RedisHistory} {k : Str}
    {types : Option (List Str)} {limit : Nat} {rows : List (List (Str × Json))}
    (h : store.query b now db k types since limit = .ok rows) {row : List (Str × Json)}
    (hrow : row ∈ rows) : ∃ raw ∈ store.held db k, rowOf raw = some row := by
  unfold query at h
  split at h
  · obtain rfl := Except.ok.inj h
    rcases mem_collect hrow with hm | ⟨raw, hm, hr⟩
    · cases hm
    · obtain ⟨e, he, rfl⟩ := List.mem_map.mp hm
      exact ⟨e.2, mem_setOf (List.mem_filter.mp (List.mem_reverse.mp he)).1, hr⟩
  · cases h

theorem rowOf_under {k : ScopeKey} {raw : Str} {row : List (Str × Json)} (h : Under run k raw)
    (hr : rowOf raw = some row) : ∃ a ∈ run, k ∈ a.scopeKeys ∧ a.ReadAs row := by
  obtain ⟨a, ha, hk, text, ht, rfl⟩ := h
  unfold rowOf at hr
  rw [payloadOf_append] at hr
  refine ⟨a, ha, hk, text, ht, ?_⟩
  split at hr
  · rename_i r hl
    rw [hl, Option.some.inj hr]
  · cases hr

end

end RedisEventHistoryStore

theorem history_apart {k k' : ScopeKey} (h : k.asString ≠ k'.asString) : HistoryApart k k' where
  memory := by
    intro store b num run hrun types since limit row hrow
    have hg := @MemoryEventHistoryStore.gained_after store (fewLike k k') run hrun
    refine (hg.own_of_empty ?_ (fun x hx he => eq_of_fewLike h hx he)
      (MemoryEventHistoryStore.mem_held_of_query hrow)).2
    exact Set.eq_empty_of_forall_notMem fun r hr => by cases hr
  redis := by
    intro store b num run hrun now types since limit rows hq row hrow
    obtain ⟨raw, hraw, hr⟩ := RedisEventHistoryStore.mem_held_of_query hq hrow
    have hg := @RedisEventHistoryStore.gained_after store num (fewLike k k') run hrun
    refine RedisEventHistoryStore.rowOf_under (hg.own_of_empty ?_
      (fun x hx he => eq_of_fewLike h hx he) hraw).2 hr
    exact Set.eq_empty_of_forall_notMem fun r ⟨w, hw, _⟩ => by cases hw

/-! ## the keys of an event -/

/-- `extract_scope_keys` keeps `k'` whenever it is found, unless a third key reads as it does -/
def ExtractApart (k k' : ScopeKey) : Prop :=
  ∀ (summary : Summary) (xs : List HistoryScopeExtractor) (keys : List ScopeKey),
    (∀ x ∈ xs, ∀ found, x.extract summary = .ok found → ∀ y ∈ found, y ∈ fewLike k k') →
    extractScopeKeys summary xs [] = .ok keys →
    ∀ x ∈ xs, ∀ found, x.extract summary = .ok found → k' ∈ found → k' ∈ keys

section
variable {k k' : ScopeKey}

theorem addKeys_subset {y : ScopeKey} : ∀ {l keys : List ScopeKey}, y ∈ addKeys keys l →
    y ∈ keys ∨ y ∈ l
  | [], _, h => .inl h
  | x :: l, keys, h => by
    unfold addKeys at h
    rcases addKeys_subset h with hm | hm
    · split at hm
      · exact .inl hm
      · refine (List.mem_append.mp hm).imp_right fun he => ?_
        exact List.mem_cons.mpr (.inl (List.mem_singleton.mp he))
    · exact .inr (List.mem_cons_of_mem _ hm)

/-- the keys that are there stay -/
theorem subset_addKeys : ∀ {l keys : List ScopeKey}, k' ∈ keys → k' ∈ addKeys keys l
  | [], _, h => h
  | x :: l, keys, h => by
    unfold addKeys
    split
    · exact subset_addKeys h
    · exact subset_addKeys (List.mem_append_left _ h)

/-- a key that none of the others reads as is added -/
theorem mem_addKeys : ∀ {l keys : List ScopeKey},
    (∀ y ∈ keys ++ l, y.asString = k'.asString → y = k') → k' ∈ l → k' ∈ addKeys keys l
  | x :: l, keys, hone, h => by
    unfold addKeys
    rcases List.mem_cons.mp h with rfl | h
    · split
      · rename_i hm
        obtain ⟨y, hy, he⟩ := List.mem_map.mp hm
        rw [hone y (List.mem_append_left _ hy) he] at hy
        exact subset_addKeys hy
      · exact subset_addKeys (List.mem_append_right _ List.mem_cons_self)
    · refine mem_addKeys (fun y hy => hone y ?_) h
      split at hy
      · rcases List.mem_append.mp hy with hy | hy
        · exact List.mem_append_left _ hy
        · exact List.mem_append_right _ (List.mem_cons_of_mem _ hy)
      · rwa [List.append_assoc] at hy

theorem subset_extractScopeKeys {summary : Summary} : ∀ {xs : List HistoryScopeExtractor}
    {keys out : List ScopeKey}, extractScopeKeys summary xs keys = .ok out → k' ∈ keys → k' ∈ out
  | [], keys, out, h, hk => by
    obtain rfl := Except.ok.inj h
    exact hk
  | x :: xs, keys, out, h, hk => by
    obtain ⟨found, -, h⟩ := ok_of_bind h
    exact subset_extractScopeKeys h (subset_addKeys hk)

theorem mem_extractScopeKeys {summary : Summary} : ∀ {xs : List HistoryScopeExtractor}
    {keys out : List ScopeKey}, (∀ y ∈ keys, y.asString = k'.asString → y = k') →
    (∀ x ∈ xs, ∀ found, x.extract summary = .ok found →
      ∀ y ∈ found, y.asString = k'.asString → y = k') →
    extractScopeKeys summary xs keys = .ok out →
    ∀ x ∈ xs, ∀ found, x.extract summary = .ok found → k' ∈ found → k' ∈ out
  | [], _, _, _, _, _ => fun x hx => absurd hx List.not_mem_nil
  | x :: xs, keys, out, hkeys, hxs, h => by
    obtain ⟨found, hfound, hrest⟩ := ok_of_bind h
    have hone : ∀ y ∈ keys ++ found, y.asString = k'.asString → y = k' := by
      intro y hy
      rcases List.mem_append.mp hy with hy | hy
      · exact hkeys y hy
      · exact hxs x List.mem_cons_self found hfound y hy
    intro x' hx' found' hfound' hk
    rcases List.mem_cons.mp hx' with rfl | hx'
    · obtain rfl := Except.ok.inj (hfound.symm.trans hfound')
      exact subset_extractScopeKeys hrest (mem_addKeys hone hk)
    · refine mem_extractScopeKeys (fun y hy => hone y ?_)
        (fun x hx => hxs x (List.mem_cons_of_mem _ hx)) hrest x' hx' found' hfound' hk
      exact List.mem_append.mpr (addKeys_subset hy)

theorem extract_apart (h : k.asString ≠ k'.asString) : ExtractApart k k' := by
  intro summary xs keys hxs hkeys
  refine mem_extractScopeKeys (fun y hy => absurd hy List.not_mem_nil) ?_ hkeys
  exact fun x hx found hf y hy he => eq_of_fewLike h (hxs x hx found hf y hy) he

end

/-! ## all of them -/

/-- whatever is done to one scope, the other does not see it -/
structure Apart (k k' : ScopeKey) : Prop where
  memory : MemoryApart k.toScope k'.toScope
  redis : ∀ (b : Builtins) (st : RedisBlockStore), RedisApart b st k.toScope k'.toScope
  history : HistoryApart k k'
  extract : ExtractApart k k'

section
variable {k k' : ScopeKey}

theorem memoryKey_toScope (k : ScopeKey) : memoryKey k.toScope = k.asString :=
  (List.append_assoc ..).symm

/-- where the texts are the same, a block of the one is found under the other -/
theorem not_memoryApart {s s' : BlockScope} (h : memoryKey s = memoryKey s') :
    ¬ MemoryApart s s' := by
  intro ha
  have hon : ∀ x ∈ [Step.call (.block s {} none)], x.On {s} := by
    intro x hx
    rw [List.mem_singleton.mp hx]
    exact fun y hy => List.mem_singleton.mp hy
  have hget : (MemoryBlockStore.getActive ((MemoryBlockStore.empty 0).put s
      (.make s {} (some 0) none)) s').1 = some (.make s {} (some 0) none) := by
    unfold MemoryBlockStore.getActive
    have he : MemoryBlockStore.entry ((MemoryBlockStore.empty 0).put s
        (.make s {} (some 0) none)) s' = some (.make s {} (some 0) none) := by
      show (Dict.set _ _ _).get _ = _
      rw [Dict.get_set, if_pos h.symm]
    rw [he]
    rfl
  have hu := (ha.unchanged (.empty 0) [.call (.block s {} none)] hon).1
  replace hu : (MemoryBlockStore.getActive ((MemoryBlockStore.empty 0).put s
      (.make s {} (some 0) none)) s').1 = none := hu
  rw [hget] at hu
  cases hu

theorem not_apart (h : k.asString = k'.asString) : ¬ Apart k k' := fun ha =>
  not_memoryApart ((memoryKey_toScope k).trans (h.trans (memoryKey_toScope k').symm)) ha.memory

theorem key_toScope (st : RedisBlockStore) (k : ScopeKey) :
    st.key k.toScope = st.keyPrefix ++ (str ":block:" ++ k.asString) := by
  rw [← memoryKey_toScope]
  rfl

/-- **two scopes share nothing exactly when `as_string` tells them apart** -/
theorem apart_iff (k k' : ScopeKey) : Apart k k' ↔ k.asString ≠ k'.asString := by
  refine ⟨fun ha h => not_apart h ha, fun h => ?_⟩
  refine ⟨memory_apart ?_, fun b st => redis_apart ?_, history_apart h, extract_apart h⟩
  · rwa [memoryKey_toScope, memoryKey_toScope]
  · rw [key_toScope, key_toScope]
    exact fun he => h (List.append_cancel_left (List.append_cancel_left he))

end

/-- `ScopeKey('a:b', 'c')` and `ScopeKey('a', 'b:c')` read alike -/
theorem not_apart_colons : ¬ ∀ k k' : ScopeKey, k ≠ k' → Apart k k' := by
  intro h
  let k : ScopeKey := ⟨str "a:b", str "c", by decide, by decide, by decide, by decide⟩
  let k' : ScopeKey := ⟨str "a", str "b:c", by decide, by decide, by decide, by decide⟩
  have hne : k ≠ k' := fun he => absurd (congrArg ScopeKey.scope he) (by decide)
  have hread : k.asString = k'.asString := by decide
  exact not_apart hread (h k k' hne)

end SecAudit
