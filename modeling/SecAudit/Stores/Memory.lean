import SecAudit.Stores.Refine
import SecAudit.Data.Dict

/-!
# `MemoryBlockStore`

One entry a scope, whether it ends or not; a later block of the scope takes its place.

* `MemoryBlockStore.block`, `unblock`, `getActive`, `firstActive`, `activeBlocks`,
  `activeTempBlocks`;
* `Keyed`           every entry is under the key of its own scope;
* `HoldsBanned`, `HoldsTemp`  which scopes have an entry without an end, or with one;
                    `getActive_iff`, `lists_activeBlocks`, `lists_activeTempBlocks`: what
                    the reads and the listings show of them.
-/

set_option linter.unusedVariables false
set_option linter.unusedSectionVars false

namespace SecAudit
open Py Prog

structure MemoryBlockStore where
  /-- what the clock says -/
  now : Int
  blocks : Dict Str BlockEntry

/-- `_key` -/
def memoryKey (s : BlockScope) : Str := s.scopeType ++ (str ":" ++ s.scopeValue)

/-- `entry.expires_at is not None and entry.expires_at <= now` -/
def BlockEntry.expired (now : Int) (e : BlockEntry) : Bool :=
  match e.expiresAt with
  | some x => decide (x ≤ now)
  | none => false

/-- a listing has an entry of `s` -/
def Lists (es : List BlockEntry) (s : BlockScope) : Prop := ∃ e ∈ es, e.scope = s

namespace MemoryBlockStore

def empty (now : Int) : MemoryBlockStore := ⟨now, .empty⟩

section
variable (m : MemoryBlockStore)

/-- the entry of a scope, ended or not -/
def entry (s : BlockScope) : Option BlockEntry := m.blocks.get (memoryKey s)

def put (s : BlockScope) (e : BlockEntry) : MemoryBlockStore :=
  { m with blocks := m.blocks.set (memoryKey s) e }

def pop (s : BlockScope) : MemoryBlockStore := { m with blocks := m.blocks.pop (memoryKey s) }

def expiry (ttl : Option Int) : Except Exc (Option Int) :=
  match ttl with
  | some n => do
    let expiresAt ← addSeconds m.now n
    return some expiresAt
  | none => return none

def block (s : BlockScope) (a : BlockArgs) (ttl : Option Int) :
    Except Exc (BlockEntry × MemoryBlockStore) := do
  let expiresAt ← m.expiry ttl
  let e := BlockEntry.make s a (some m.now) expiresAt
  return (e, m.put s e)

def unblock (s : BlockScope) : Int × MemoryBlockStore :=
  (if (m.entry s).isSome then 1 else 0, m.pop s)

def activeBlocks : List BlockEntry :=
  (m.blocks.items.map Prod.snd).filter fun e => e.expiresAt.isNone && !e.expired m.now

def activeTempBlocks : List BlockEntry :=
  (m.blocks.items.map Prod.snd).filter fun e => e.expiresAt.isSome && !e.expired m.now

/-- an entry that has ended is removed -/
def getActive (s : BlockScope) : Option BlockEntry × MemoryBlockStore :=
  match m.entry s with
  | none => (none, m)
  | some e => if e.expired m.now then (none, m.pop s) else (some e, m)

def firstActive : List BlockScope → MemoryBlockStore → Option BlockEntry × MemoryBlockStore
  | [], m => (none, m)
  | s :: rest, m =>
    match m.getActive s with
    | (some e, m') => (some e, m')
    | (none, m') => firstActive rest m'

/-- `none` when the call raises; the store has no cache to evict from -/
def step : Step → Option MemoryBlockStore
  | .call (.block s a ttl) => match m.block s a ttl with
    | .ok r => some r.2
    | .error _ => none
  | .call (.unblock s _ _) => some (m.unblock s).2
  | .call (.getActive s) => some (m.getActive s).2
  | .call (.firstActive ss) => some (firstActive ss m).2
  | .env (.advance d) => some { m with now := m.now + d }
  | .env (.evict _) => some m

def run : MemoryBlockStore → List Step → Option MemoryBlockStore
  | m, [] => some m
  | m, x :: xs => (m.step x).bind fun m' => run m' xs

end

/-! ## what is in the store -/

section
variable {m : MemoryBlockStore}

theorem memoryKey_injective {s s' : BlockScope} (hs : NoColon s) (hs' : NoColon s')
    (h : memoryKey s = memoryKey s') : s = s' := by
  obtain ⟨ht, hv⟩ := append_colon_injective hs hs' h
  exact BlockScope.pair_injective (Prod.ext ht hv)

/-- every entry is under the key of its own scope -/
def Keyed (m : MemoryBlockStore) : Prop :=
  ∀ k e, m.blocks.get k = some e → NoColon e.scope ∧ k = memoryKey e.scope

/-- `s` has an entry without an end -/
def HoldsBanned (m : MemoryBlockStore) (s : BlockScope) : Prop :=
  ∃ e, m.entry s = some e ∧ e.expiresAt = none

/-- `s` has an entry that ends at `x` -/
def HoldsTemp (m : MemoryBlockStore) (s : BlockScope) (x : Int) : Prop :=
  ∃ e, m.entry s = some e ∧ e.expiresAt = some x

theorem expired_iff {now : Int} {e : BlockEntry} :
    e.expired now = true ↔ ∃ x, e.expiresAt = some x ∧ x ≤ now := by
  unfold BlockEntry.expired
  cases e.expiresAt with
  | none => simp
  | some x => simp

/-- a read finds the entry of a scope that has not ended -/
theorem getActive_iff {s : BlockScope} :
    (m.getActive s).1 ≠ none ↔ m.HoldsBanned s ∨ ∃ x, m.HoldsTemp s x ∧ m.now < x := by
  unfold getActive HoldsBanned HoldsTemp
  cases m.entry s with
  | none => simp
  | some e =>
    dsimp only
    by_cases h : e.expired m.now = true
    · rw [if_pos h]
      obtain ⟨x, hx, hle⟩ := expired_iff.mp h
      simp only [ne_eq, not_true_eq_false, false_iff]
      rintro (⟨e', he', hn⟩ | ⟨x', ⟨e', he', hx'⟩, hlt⟩)
      · obtain rfl := Option.some.inj he'
        rw [hx] at hn
        cases hn
      · obtain rfl := Option.some.inj he'
        rw [hx] at hx'
        obtain rfl := Option.some.inj hx'
        omega
    · rw [if_neg h]
      simp only [ne_eq, reduceCtorEq, not_false_eq_true, true_iff]
      cases hx : e.expiresAt with
      | none => exact .inl ⟨e, rfl, hx⟩
      | some x =>
        refine .inr ⟨x, ⟨e, rfl, hx⟩, ?_⟩
        by_contra hle
        exact h (expired_iff.mpr ⟨x, hx, by omega⟩)

/-- after a read the store holds what had not ended -/
theorem entry_getActive {s : BlockScope} {s' : BlockScope} (hs : NoColon s) (hs' : NoColon s') :
    (m.getActive s).2.entry s' = m.entry s' ∨
      ((m.getActive s).2.entry s' = none ∧ ∃ x, m.HoldsTemp s' x ∧ x ≤ m.now) := by
  unfold getActive
  cases he : m.entry s with
  | none => exact .inl rfl
  | some e =>
    dsimp only
    by_cases h : e.expired m.now = true
    · rw [if_pos h]
      show (m.blocks.pop (memoryKey s)).get (memoryKey s') = _ ∨ _
      rw [Dict.get_pop]
      by_cases hk : memoryKey s' = memoryKey s
      · obtain rfl := memoryKey_injective hs' hs hk
        obtain ⟨x, hx, hle⟩ := expired_iff.mp h
        refine .inr ⟨?_, x, ⟨e, he, hx⟩, hle⟩
        show (m.blocks.pop (memoryKey s')).get (memoryKey s') = none
        rw [Dict.get_pop, if_pos rfl]
      · rw [if_neg hk]
        exact .inl rfl
    · rw [if_neg h]
      exact .inl rfl

theorem mem_values {e : BlockEntry} :
    e ∈ m.blocks.items.map Prod.snd ↔ ∃ k, m.blocks.get k = some e := by
  simp only [List.mem_map, Dict.get_eq_some]
  constructor
  · rintro ⟨⟨k, e'⟩, h, rfl⟩
    exact ⟨k, h⟩
  · rintro ⟨k, h⟩
    exact ⟨_, h, rfl⟩

/-- the entries of a listing are those the store has for their scopes -/
theorem Keyed.lists (h : m.Keyed) {q : BlockEntry → Bool} {s : BlockScope} (hs : NoColon s) :
    Lists ((m.blocks.items.map Prod.snd).filter q) s ↔ ∃ e, m.entry s = some e ∧ q e = true := by
  unfold Lists
  simp only [List.mem_filter, mem_values]
  constructor
  · rintro ⟨e, ⟨⟨k, hk⟩, hq⟩, rfl⟩
    obtain ⟨-, rfl⟩ := h k e hk
    exact ⟨e, hk, hq⟩
  · rintro ⟨e, he, hq⟩
    obtain ⟨hn, hk⟩ := h _ e he
    exact ⟨e, ⟨⟨_, he⟩, hq⟩, memoryKey_injective hn hs hk.symm⟩

theorem Keyed.lists_noColon (h : m.Keyed) {q : BlockEntry → Bool} {s : BlockScope}
    (hl : Lists ((m.blocks.items.map Prod.snd).filter q) s) : NoColon s := by
  obtain ⟨e, he, rfl⟩ := hl
  obtain ⟨k, hk⟩ := mem_values.mp (List.mem_filter.mp he).1
  exact (h k e hk).1

theorem lists_activeBlocks (h : m.Keyed) {s : BlockScope} (hs : NoColon s) :
    Lists m.activeBlocks s ↔ m.HoldsBanned s := by
  unfold activeBlocks HoldsBanned
  rw [h.lists hs]
  refine exists_congr fun e => and_congr_right fun _ => ?_
  rw [Bool.and_eq_true, Option.isNone_iff_eq_none, and_iff_left_of_imp]
  intro hn
  unfold BlockEntry.expired
  rw [hn]
  rfl

theorem lists_activeTempBlocks (h : m.Keyed) {s : BlockScope} (hs : NoColon s) :
    Lists m.activeTempBlocks s ↔ ∃ x, m.HoldsTemp s x ∧ m.now < x := by
  unfold activeTempBlocks HoldsTemp
  rw [h.lists hs]
  constructor
  · rintro ⟨e, he, hq⟩
    rw [Bool.and_eq_true, Option.isSome_iff_exists] at hq
    obtain ⟨⟨x, hx⟩, hq⟩ := hq
    refine ⟨x, ⟨e, he, hx⟩, ?_⟩
    by_contra hle
    rw [expired_iff.mpr ⟨x, hx, by omega⟩] at hq
    cases hq
  · rintro ⟨x, ⟨e, he, hx⟩, hlt⟩
    refine ⟨e, he, ?_⟩
    unfold BlockEntry.expired
    rw [hx]
    simpa using hlt

/-- **the two listings of the in-memory store split what it reports as blocked** -/
theorem listings_split (h : m.Keyed) {s : BlockScope} (hs : NoColon s) :
    ¬ (Lists m.activeBlocks s ∧ Lists m.activeTempBlocks s) ∧
      ((Lists m.activeBlocks s ∨ Lists m.activeTempBlocks s) ↔ (m.getActive s).1 ≠ none) := by
  rw [lists_activeBlocks h hs, lists_activeTempBlocks h hs, getActive_iff]
  refine ⟨?_, Iff.rfl⟩
  rintro ⟨⟨e, he, hn⟩, x, ⟨e', he', hx⟩, -⟩
  rw [he] at he'
  obtain rfl := Option.some.inj he'
  rw [hn] at hx
  cases hx

/-! ## the entries after a step -/

theorem entry_put {s s' : BlockScope} (hs : NoColon s) (hs' : NoColon s') (e : BlockEntry) :
    (m.put s e).entry s' = if s' = s then some e else m.entry s' := by
  show (m.blocks.set (memoryKey s) e).get (memoryKey s') = _
  rw [Dict.get_set]
  by_cases h : s' = s
  · rw [if_pos h, if_pos (by rw [h])]
  · rw [if_neg h, if_neg fun hk => h (memoryKey_injective hs' hs hk)]
    rfl

theorem entry_pop {s s' : BlockScope} (hs : NoColon s) (hs' : NoColon s') :
    (m.pop s).entry s' = if s' = s then none else m.entry s' := by
  show (m.blocks.pop (memoryKey s)).get (memoryKey s') = _
  rw [Dict.get_pop]
  by_cases h : s' = s
  · rw [if_pos h, if_pos (by rw [h])]
  · rw [if_neg h, if_neg fun hk => h (memoryKey_injective hs' hs hk)]
    rfl

theorem Keyed.put (h : m.Keyed) {s : BlockScope} (hs : NoColon s) {e : BlockEntry}
    (he : e.scope = s) : (m.put s e).Keyed := by
  intro k e' hk
  replace hk : (m.blocks.set (memoryKey s) e).get k = some e' := hk
  rw [Dict.get_set] at hk
  split at hk
  · rename_i hks
    obtain rfl := Option.some.inj hk
    rw [he]
    exact ⟨hs, hks⟩
  · exact h k e' hk

theorem Keyed.pop (h : m.Keyed) (s : BlockScope) : (m.pop s).Keyed := by
  intro k e hk
  replace hk : (m.blocks.pop (memoryKey s)).get k = some e := hk
  rw [Dict.get_pop] at hk
  split at hk
  · cases hk
  · exact h k e hk

theorem Keyed.getActive (h : m.Keyed) (s : BlockScope) : (m.getActive s).2.Keyed := by
  unfold MemoryBlockStore.getActive
  cases m.entry s with
  | none => exact h
  | some e =>
    dsimp only
    split
    · exact h.pop s
    · exact h

theorem now_getActive (m : MemoryBlockStore) (s : BlockScope) : (m.getActive s).2.now = m.now := by
  unfold MemoryBlockStore.getActive
  cases m.entry s with
  | none => rfl
  | some e =>
    dsimp only
    split <;> rfl

theorem step_block_temp {s : BlockScope} {a : BlockArgs} {n : Int} {m' : MemoryBlockStore}
    (h : m.step (.call (.block s a (some n))) = some m') :
    m' = m.put s (.make s a (some m.now) (some (m.now + seconds n))) := by
  have hb : m.block s a (some n) = match addSeconds m.now n with
      | .ok y => .ok (.make s a (some m.now) (some y), m.put s (.make s a (some m.now) (some y)))
      | .error x => .error x := by
    have hx : m.expiry (some n) = (addSeconds m.now n).map some := by
      show (addSeconds m.now n >>= fun y => pure (some y)) = _
      cases addSeconds m.now n <;> rfl
    unfold block
    rw [hx]
    cases addSeconds m.now n <;> rfl
  replace h : (match m.block s a (some n) with
    | .ok r => some r.2
    | .error _ => none) = some m' := h
  rw [hb] at h
  cases hy : addSeconds m.now n with
  | error x =>
    rw [hy] at h
    cases h
  | ok y =>
    rw [hy] at h
    unfold addSeconds at hy
    split at hy
    · rw [Except.ok.inj hy]
      exact (Option.some.inj h).symm
    · cases hy

end

end MemoryBlockStore

end SecAudit
