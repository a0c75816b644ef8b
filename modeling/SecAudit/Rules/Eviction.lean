import SecAudit.Data.Added
import SecAudit.Rules.History

/-!
# What the history in memory keeps

* `RoomFor`         a call does not touch the oldest keys that must go to make room for it;
* `loggedRows`      the rows that a run has appended to a key;
* `Bounded`         no more keys and rows than allowed, the rows of a key being the latest ones;
* `newest_iff`      the rows of a call are there after it exactly when there was room for it;
* `append_kept`     so it is along every run, which stays bounded.
-/

set_option linter.unusedVariables false

namespace SecAudit
open Py

/-- what holds of each element after those before it -/
theorem forall_split {α : Type} {P : List α → α → Prop} {l : List α} :
    (∀ u y v, l = u ++ y :: v → P u y) ↔ ∀ i : Fin l.length, P (l.take i) l[i] := by
  constructor
  · intro h i
    refine h _ _ (l.drop (i + 1)) ?_
    exact (List.take_append_drop i l).symm.trans (by rw [List.drop_eq_getElem_cons i.isLt]; rfl)
  · rintro h u y v rfl
    have hy := h ⟨u.length, by simp⟩
    simpa using hy

namespace MemoryEventHistoryStore

section
variable (store : MemoryEventHistoryStore)

/-- how many keys are too many once `ks` are added -/
def excess (events : MemoryHistory) (ks : List Str) : Nat :=
  (addedKeys events.keys ks).length - store.maxKeys

/-- the oldest keys, which must go, are none of the keys of the call -/
def RoomFor (events : MemoryHistory) (a : Append) : Prop :=
  ∀ k ∈ a.keys, k ∉ events.keys.take (store.excess events a.keys)

/-- the newest row of a key -/
def newest (events : MemoryHistory) (k : Str) : Option (Dict Str Json) :=
  ((events.get k).getD []).getLast?

/-- what a run has appended to a key, as often as it did -/
def loggedRows (k : Str) (run : List Append) : List (Dict Str Json) :=
  run.flatMap fun a => (a.keys.filter fun k' => decide (k' = k)).map fun _ => a.entry

/-- within the limits, the rows of a key being the latest ones appended to it -/
structure Bounded (events : MemoryHistory) (run : List Append) : Prop where
  size : events.size ≤ store.maxKeys
  length : ∀ k, ((events.get k).getD []).length ≤ store.maxEventsPerKey
  suffix : ∀ k, (events.get k).getD [] <:+ loggedRows k run

variable {store} {events : MemoryHistory} {a : Append} {row : Dict Str Json} {k : Str}

/-! ## one call -/

theorem keys_appendAll : ∀ {ks : List Str} {events : MemoryHistory},
    (ks.foldl (store.appendOne row) events).keys = addedKeys events.keys ks
  | [], events => rfl
  | k :: ks, events => by
    rw [List.foldl_cons, keys_appendAll, addedKeys]
    unfold appendOne
    rw [Dict.keys_set_eq]

/-- the rows of a key after the loop: the latest of those it had and the new ones -/
theorem rows_appendAll (hcap : 1 ≤ store.maxEventsPerKey) : ∀ {ks : List Str}
    {events : MemoryHistory}, ((events.get k).getD []).length ≤ store.maxEventsPerKey →
    ((ks.foldl (store.appendOne row) events).get k).getD []
      = ((events.get k).getD [] ++ (ks.filter fun k' => decide (k' = k)).map fun _ => row).rtake
          store.maxEventsPerKey
  | [], events, hlen => by
    rw [List.filter_nil, List.map_nil, List.append_nil, List.rtake_of_length_le hlen]
    rfl
  | k' :: ks, events, hlen => by
    have hget : ((store.appendOne row events k').get k).getD []
        = ((events.get k).getD [] ++ if k' = k then [row] else []).rtake
            store.maxEventsPerKey := by
      unfold appendOne
      rw [Dict.get_set]
      by_cases h : k' = k
      · subst h
        rw [if_pos rfl, if_pos rfl, lastSlice_eq hcap]
        rfl
      · rw [if_neg (Ne.symm h), if_neg h, List.append_nil, List.rtake_of_length_le hlen]
    rw [List.foldl_cons, rows_appendAll hcap (by
      rw [hget]
      exact List.length_rtake_le ..), hget, List.rtake_rtake_append, List.append_assoc]
    by_cases h : k' = k
    · rw [if_pos h, List.filter_cons_of_pos (by simpa using h)]
      rfl
    · rw [if_neg h, List.filter_cons_of_neg (by simpa using h)]
      rfl

theorem append_eq : store.append events a
    = (a.keys.foldl (store.appendOne a.entry) events).dropFirst (store.excess events a.keys) := by
  unfold append evict excess
  rw [Dict.size_eq, keys_appendAll]

/-- only keys that were stored before must go -/
theorem taken_keys (hsize : events.size ≤ store.maxKeys)
    (hkeys : a.keys.dedup.length ≤ store.maxKeys) :
    (addedKeys events.keys a.keys).take (store.excess events a.keys)
      = events.keys.take (store.excess events a.keys) := by
  obtain ⟨new, hnew⟩ := addedKeys_prefix a.keys events.keys
  have hlen : (addedKeys (events.items.map Prod.fst) a.keys).length
      ≤ (events.items.map Prod.fst).length + a.keys.dedup.length := length_addedKeys events.nodup
  have hle : store.excess events a.keys ≤ events.keys.length := by
    unfold excess
    rw [show (events.items.map Prod.fst).length = events.size from List.length_map _] at hlen
    rw [show events.keys.length = events.size from List.length_map _]
    change (addedKeys events.keys a.keys).length ≤ _ at hlen
    omega
  rw [← hnew, List.take_append_of_le_length hle]

theorem get_append (hsize : events.size ≤ store.maxKeys)
    (hkeys : a.keys.dedup.length ≤ store.maxKeys) (k : Str) : (store.append events a).get k
      = if k ∈ events.keys.take (store.excess events a.keys) then none
        else (a.keys.foldl (store.appendOne a.entry) events).get k := by
  rw [append_eq, Dict.get_dropFirst, keys_appendAll, taken_keys hsize hkeys]
  congr

/-- a new row is the last one of its key, if the key is not dropped -/
theorem newest_append (hcap : 1 ≤ store.maxEventsPerKey) (hsize : events.size ≤ store.maxKeys)
    (hlen : ((events.get k).getD []).length ≤ store.maxEventsPerKey)
    (hkeys : a.keys.dedup.length ≤ store.maxKeys) (hk : k ∈ a.keys) :
    newest (store.append events a) k
      = if k ∈ events.keys.take (store.excess events a.keys) then none else some a.entry := by
  unfold newest
  rw [get_append hsize hkeys]
  split
  · rfl
  · rw [rows_appendAll hcap hlen]
    have hne : (a.keys.filter fun k' => decide (k' = k)) ≠ [] :=
      List.ne_nil_of_mem (List.mem_filter.mpr ⟨hk, decide_eq_true rfl⟩)
    obtain ⟨n, hn⟩ : ∃ n, (a.keys.filter fun k' => decide (k' = k)).map (fun _ => a.entry)
        = List.replicate n a.entry ++ [a.entry] := by
      refine ⟨(a.keys.filter fun k' => decide (k' = k)).length - 1, ?_⟩
      rw [List.map_const', ← List.replicate_succ']
      congr 1
      have := List.length_pos_iff.mpr hne
      omega
    obtain ⟨m, hm⟩ : ∃ m, store.maxEventsPerKey = m + 1 := ⟨store.maxEventsPerKey - 1, by omega⟩
    rw [hn, ← List.append_assoc, hm, List.rtake_concat_succ, List.getLast?_concat]

/-! ## along a run -/

theorem loggedRows_concat (run : List Append) :
    loggedRows k (run ++ [a]) = loggedRows k run
      ++ (a.keys.filter fun k' => decide (k' = k)).map fun _ => a.entry := by
  unfold loggedRows
  rw [List.flatMap_append, List.flatMap_singleton]

/-- **a call keeps the bounds** -/
theorem Bounded.append {run : List Append} (hcap : 1 ≤ store.maxEventsPerKey)
    (h : Bounded store events run) (hkeys : a.keys.dedup.length ≤ store.maxKeys) :
    Bounded store (store.append events a) (run ++ [a]) where
  size := by
    rw [append_eq, Dict.size_eq, Dict.keys_dropFirst, List.length_drop, keys_appendAll]
    unfold excess
    omega
  length := by
    intro k
    rw [get_append h.size hkeys]
    split
    · exact Nat.zero_le _
    · rw [rows_appendAll hcap (h.length k)]
      exact List.length_rtake_le ..
  suffix := by
    intro k
    rw [get_append h.size hkeys]
    split
    · exact List.nil_suffix
    · rw [rows_appendAll hcap (h.length k), loggedRows_concat]
      obtain ⟨y, hy⟩ := h.suffix k
      refine (List.rtake_suffix _ _).trans ⟨y, ?_⟩
      rw [← hy, List.append_assoc]

theorem bounded_empty : Bounded store .empty [] where
  size := Nat.zero_le _
  length := fun k => Nat.zero_le _
  suffix := fun k => List.nil_suffix

theorem bounded_after (hcap : 1 ≤ store.maxEventsPerKey) {run : List Append} :
    (∀ a ∈ run, a.keys.dedup.length ≤ store.maxKeys) → Bounded store (store.after run) run := by
  induction run using List.reverseRecOn with
  | nil => exact fun _ => bounded_empty
  | append_singleton run a ih =>
    intro hkeys
    rw [after_concat]
    exact (ih fun x hx => hkeys x (List.mem_append_left _ hx)).append hcap
      (hkeys a (List.mem_append_right _ List.mem_cons_self))

/-- **the rows of a call are there after it** exactly when there was room for it -/
theorem newest_iff (hcap : 1 ≤ store.maxEventsPerKey) {run : List Append}
    (h : Bounded store events run) (hkeys : a.keys.dedup.length ≤ store.maxKeys) :
    (∀ k ∈ a.keys, newest (store.append events a) k = some a.entry) ↔ store.RoomFor events a := by
  refine forall₂_congr fun k hk => ?_
  rw [newest_append hcap h.size (h.length k) hkeys hk]
  split
  · rename_i hmem
    exact iff_of_false (by simp) (not_not_intro hmem)
  · rename_i hmem
    exact iff_of_true rfl hmem

end

/-- **The rows of a call are kept exactly when there is room for them**, along every run of calls
that each list at most `max_keys` distinct keys; and the store stays within its limits. -/
theorem append_kept (store : MemoryEventHistoryStore) (hcap : 1 ≤ store.maxEventsPerKey)
    (run : List Append) (hcalls : ∀ a ∈ run, a.keys.dedup.length ≤ store.maxKeys) :
    ((∀ r a, r ++ [a] <+: run → ∀ k ∈ a.keys,
        newest (store.after (r ++ [a])) k = some a.entry) ↔
      ∀ r a, r ++ [a] <+: run → store.RoomFor (store.after r) a) ∧
    ∀ r, r <+: run → Bounded store (store.after r) r := by
  have hbounded : ∀ r, r <+: run → Bounded store (store.after r) r := fun r hr =>
    bounded_after hcap fun a ha => hcalls a (hr.subset ha)
  refine ⟨forall_congr' fun r => forall_congr' fun a => forall_congr' fun hr => ?_, hbounded⟩
  have ha : a ∈ run := hr.subset (List.mem_append_right _ List.mem_cons_self)
  rw [after_concat]
  exact newest_iff hcap (hbounded r ((List.prefix_append r [a]).trans hr)) (hcalls a ha)

/-! ## a key that was stored long ago -/

def sessionScope : ScopeKey :=
  .of (str "session") (str "5f") (by decide)

/-- the address goes when the session comes, and the user when the address is back; each call but the
first two is under a key that is stored already -/
def revisits : List Append :=
  [visitAt "login" [addressKey] ⟨str "1.0", Eq.refl true⟩ uuidA 1,
    visitAt "login" [userScope] ⟨str "2.0", Eq.refl true⟩ uuidB 2,
    visitAt "login" [addressKey] ⟨str "3.0", Eq.refl true⟩ uuidC 3,
    visitAt "login" [userScope, sessionScope] ⟨str "4.0", Eq.refl true⟩ uuidD 4,
    visitAt "logout" [addressKey, sessionScope] ⟨str "5.0", Eq.refl true⟩ uuidE 5]

theorem append_kept_revisits :
    (MemoryEventHistoryStore.after ⟨2, 100⟩ revisits).keys
      = [sessionScope.asString, addressKey.asString] ∧
    ∀ r a, r ++ [a] <+: revisits → ∀ k ∈ a.keys,
      newest (MemoryEventHistoryStore.after ⟨2, 100⟩ (r ++ [a])) k = some a.entry := by
  refine ⟨by decide +kernel, (append_kept ⟨2, 100⟩ (by decide) revisits (by decide +kernel)).1.mpr ?_⟩
  have hroom : ∀ r a t, revisits = r ++ a :: t →
      RoomFor ⟨2, 100⟩ (MemoryEventHistoryStore.after ⟨2, 100⟩ r) a :=
    forall_split.mpr (by unfold RoomFor; decide +kernel)
  rintro r a ⟨t, ht⟩
  exact hroom r a t (by rw [← ht, List.append_assoc]; rfl)

/-- with two keys stored, an event under the older one and a new one -/
def reused : List Append :=
  [recorded .null [addressKey], recorded .null [userScope],
    recorded .null [addressKey, sessionScope]]

/-- the row under the older key is gone with the key -/
theorem append_lost : ¬ ∀ (store : MemoryEventHistoryStore) (run : List Append),
    1 ≤ store.maxKeys → 1 ≤ store.maxEventsPerKey →
    (∀ a ∈ run, a.keys.dedup.length ≤ store.maxKeys) →
    ∀ r a, r ++ [a] <+: run → ∀ k ∈ a.keys,
      newest (store.after (r ++ [a])) k = some a.entry := by
  intro h
  have hlast := h ⟨2, 100⟩ reused (by decide) (by decide) (by decide)
    [recorded .null [addressKey], recorded .null [userScope]]
    (recorded .null [addressKey, sessionScope]) (List.prefix_refl _) addressKey.asString
    List.mem_cons_self
  have hnone : (newest (MemoryEventHistoryStore.after ⟨2, 100⟩ reused)
      addressKey.asString).isSome = false := by decide
  exact absurd ((congrArg Option.isSome hlast).symm.trans hnone) (by decide)

end MemoryEventHistoryStore

end SecAudit
