import Mathlib.Algebra.Order.Ring.Rat
import Mathlib.Data.List.Dedup
import Mathlib.Data.List.Forall2
import Mathlib.Tactic.Linarith
import SecAudit.Data.Dict
import SecAudit.Data.Recent
import SecAudit.Data.Windows
import SecAudit.Py.JsonSort
import SecAudit.Rules.Scopes
import SecAudit.Stores.Redis

/-!
# The history of events, in memory and in Redis

* `Append`          one `append`, with what the server and `uuid4` contribute to it;
* `MemoryEventHistoryStore`, `RedisEventHistoryStore`  the stores, with `append` and `query`;
* `SameRow`         one row in both: the same items, in another order;
* `EngineRun`       appends as the engine makes them;
* `history_alike`   after such a run both stores answer alike.

Times are in seconds.
-/

set_option linter.unusedVariables false

namespace SecAudit
open Py

/-- a `uuid4().hex` -/
structure Uuid where
  hex : Str
  no_colon : cp ':' ∉ hex

structure Append where
  summary : Dict Str Json
  scopeKeys : List ScopeKey
  recordedAt : FloatLit
  uuid : Uuid
  /-- the time of the server -/
  now : ℚ

namespace Append

/-- `entry`: the summary, with its time -/
def entry (a : Append) : Dict Str Json := a.summary.set (str "recorded_at") (.float a.recordedAt)

def keys (a : Append) : List Str := a.scopeKeys.map ScopeKey.asString

end Append

section
variable (b : Builtins) (num : FloatLit → ℚ)

/-- `str(row.get('event_type') or '')` -/
def typeText (v : Option Json) : Str := strOf b (orElse b v (.string []))

/-- `event_types is None or … in event_types` -/
def typeAllowed (eventTypes : Option (List Str)) (v : Option Json) : Bool :=
  match eventTypes with
  | none => true
  | some types => decide (typeText b v ∈ types)

end

/-! ## in memory -/

/-- `l[-n:]` -/
def lastSlice {α : Type} (n : Nat) (l : List α) : List α := if n = 0 then l else l.rtake n

structure MemoryEventHistoryStore where
  maxKeys : Nat
  maxEventsPerKey : Nat

/-- the rows by scope key -/
abbrev MemoryHistory := Dict Str (List (Dict Str Json))

namespace MemoryEventHistoryStore

section
variable (store : MemoryEventHistoryStore) (b : Builtins) (num : FloatLit → ℚ)

/-- one turn of the loop of `append` -/
def appendOne (row : Dict Str Json) (events : MemoryHistory) (key : Str) : MemoryHistory :=
  events.set key (lastSlice store.maxEventsPerKey ((events.get key).getD [] ++ [row]))

/-- `_evict` -/
def evict (events : MemoryHistory) : MemoryHistory :=
  events.dropFirst (events.size - store.maxKeys)

def append (events : MemoryHistory) (a : Append) : MemoryHistory :=
  store.evict (a.keys.foldl (store.appendOne a.entry) events)

/-- `float(row.get('recorded_at', 0.0))` -/
def recordedOf (row : Dict Str Json) : ℚ :=
  match row.get (str "recorded_at") with
  | some (.float f) => num f
  | _ => 0

def query (events : MemoryHistory) (scopeKey : Str) (eventTypes : Option (List Str)) (since : ℚ)
    (limit : Nat) : List (Dict Str Json) :=
  ((((events.get scopeKey).getD []).filter fun row => decide (since < recordedOf num row) &&
    typeAllowed b eventTypes (row.get (str "event_type"))).reverse).take limit

/-- the rows after a run -/
def after (run : List Append) : MemoryHistory := run.foldl store.append .empty

end

end MemoryEventHistoryStore

/-! ## in Redis -/

/-- scores with members, the smallest first -/
abbrev SortedSet := List (ℚ × Str)

/-- the order of a sorted set: by score, then by member -/
def SortedSet.before (e f : ℚ × Str) : Prop := e.1 < f.1 ∨ (e.1 = f.1 ∧ e.2 < f.2)

instance (e f : ℚ × Str) : Decidable (SortedSet.before e f) :=
  inferInstanceAs (Decidable (_ ∨ _ ∧ _))

namespace SortedSet

/-- the place of an element that is not there -/
def insert (e : ℚ × Str) : SortedSet → SortedSet
  | [] => [e]
  | f :: z => if before f e then f :: insert e z else e :: f :: z

/-- `ZADD` -/
def add (score : ℚ) (member : Str) (z : SortedSet) : SortedSet :=
  insert (score, member) (z.filter fun e => decide (e.2 ≠ member))

/-- `_HISTORY_APPEND_LUA`, `EXPIRE` apart -/
def appendScript (score : ℚ) (member : Str) (floor : ℚ) (cap : Nat) (z : SortedSet) : SortedSet :=
  let z := add score member (z.filter fun e => decide (floor < e.1))
  if cap < z.length then z.drop (z.length - cap) else z

end SortedSet

structure RedisEventHistoryStore where
  keyPrefix : Str
  maxEventsPerKey : Nat
  windowSeconds : Int

/-- the sorted sets of the server, with their ends -/
abbrev RedisHistory := Windows Str SortedSet ℚ

/-- `json.dumps(entry, sort_keys=True)` -/
def dumpsRow (row : Dict Str Json) : Except Exc Str :=
  match (Json.obj row.items).sortKeys.dumps .default true with
  | some text => .ok text
  | none => .error .jsonError

namespace RedisEventHistoryStore

section
variable (store : RedisEventHistoryStore) (b : Builtins) (num : FloatLit → ℚ)

/-- `_key` -/
def key (k : Str) : Str := store.keyPrefix ++ (str ":hist:" ++ k)

/-- the sorted set of a key, empty when it is not there -/
def setOf (now : ℚ) (db : RedisHistory) (k : Str) : SortedSet :=
  ((Windows.live now db (store.key k)).map Window.value).getD []

/-- the script, for one key -/
def appendTo (a : Append) (member : Str) (db : RedisHistory) (k : Str) : RedisHistory :=
  Function.update db (store.key k) (some
    ⟨SortedSet.appendScript (num a.recordedAt) member
      (num a.recordedAt - store.windowSeconds) store.maxEventsPerKey (store.setOf a.now db k),
      some (a.now + (store.windowSeconds + 60 : Int))⟩)

/-- the loop of `append` -/
def appendEach (a : Append) (member : Str) : List Str → RedisHistory →
    Except Exc Unit × RedisHistory
  | [], db => (.ok (), db)
  | k :: l, db =>
    if encodable (store.key k) then appendEach a member l (store.appendTo num a member db k)
    else (.error .unicodeError, db)

def append (db : RedisHistory) (a : Append) : Except Exc Unit × RedisHistory :=
  match dumpsRow a.entry with
  | .error e => (.error e, db)
  | .ok text => store.appendEach num a (a.uuid.hex ++ (str ":" ++ text)) a.keys db

/-- `raw.partition(':')[2]` -/
def payloadOf (raw : Str) : Str := (raw.dropWhile fun c => decide (c ≠ cp ':')).drop 1

/-- the row of a member, when it is one -/
def rowOf (raw : Str) : Option (List (Str × Json)) :=
  match loads (payloadOf raw) with
  | some (.obj row) => some row
  | _ => none

/-- the loop of `query`, after `rows` -/
def collect (eventTypes : Option (List Str)) (limit : Nat) : List Str →
    List (List (Str × Json)) → List (List (Str × Json))
  | [], rows => rows
  | raw :: l, rows =>
    match rowOf raw with
    | none => collect eventTypes limit l rows
    | some row =>
      if typeAllowed b eventTypes (Json.lookup (str "event_type") row) then
        if limit ≤ (rows ++ [row]).length then rows ++ [row]
        else collect eventTypes limit l (rows ++ [row])
      else collect eventTypes limit l rows

def query (now : ℚ) (db : RedisHistory) (scopeKey : Str) (eventTypes : Option (List Str))
    (since : ℚ) (limit : Nat) : Except Exc (List (List (Str × Json))) :=
  if encodable (store.key scopeKey) then
    .ok (collect b eventTypes limit
      ((((store.setOf now db scopeKey).filter fun e => decide (since < e.1)).reverse).map
        Prod.snd) [])
  else .error .unicodeError

/-- the sorted sets after a run -/
def after (run : List Append) : RedisHistory :=
  run.foldl (fun db a => (store.append num db a).2) fun _ => none

end

end RedisEventHistoryStore

/-- the row of one store is that of the other, its items in another order -/
def SameRow (row : Dict Str Json) (row' : List (Str × Json)) : Prop :=
  sortRow row.items = sortRow row'

/-! ## runs of the engine -/

/-- `json.loads` undoes `json.dumps` on the row, up to the order of the keys -/
def RoundTrips (row : Dict Str Json) : Prop :=
  ∃ text, dumpsRow row = .ok text ∧ loads text = some (.obj (sortRow row.items))

/-- appends as the engine makes them: one after the other, each key once, with keys that have a
UTF-8 form and an event type that `str` writes alike after `json.loads` -/
structure EngineRun (num : FloatLit → ℚ) (store : RedisEventHistoryStore) (run : List Append) :
    Prop where
  increasing : run.Pairwise fun x y => num x.recordedAt < num y.recordedAt
  clock : run.Pairwise fun x y => x.now ≤ y.now
  recorded : ∀ a ∈ run, num a.recordedAt ≤ a.now
  uuids : run.Pairwise fun x y => x.uuid.hex ≠ y.uuid.hex
  native : ∀ a ∈ run, RoundTrips a.entry
  distinct : ∀ a ∈ run, a.keys.Nodup
  encodable : ∀ a ∈ run, ∀ k ∈ a.keys, encodable (store.key k) = true
  plain : ∀ a ∈ run, ∀ v ∈ a.entry.get (str "event_type"), v.sortKeys = v

/-- the appends of a run under the key `k` -/
def logOf (k : Str) (run : List Append) : List Append := run.filter fun a => decide (k ∈ a.keys)

theorem logOf_concat_of_mem {k : Str} {a : Append} (run : List Append) (h : k ∈ a.keys) :
    logOf k (run ++ [a]) = logOf k run ++ [a] := by
  unfold logOf
  rw [List.filter_append, List.filter_cons_of_pos (by simpa using h)]
  rfl

theorem logOf_concat_of_not_mem {k : Str} {a : Append} (run : List Append) (h : k ∉ a.keys) :
    logOf k (run ++ [a]) = logOf k run := by
  unfold logOf
  rw [List.filter_append, List.filter_cons_of_neg (by simpa using h)]
  exact List.append_nil _

theorem EngineRun.of_concat {num : FloatLit → ℚ} {store : RedisEventHistoryStore}
    {run : List Append} {a : Append} (h : EngineRun num store (run ++ [a])) :
    EngineRun num store run where
  increasing := (List.pairwise_append.mp h.increasing).1
  clock := (List.pairwise_append.mp h.clock).1
  recorded := fun x hx => h.recorded x (List.mem_append_left _ hx)
  uuids := (List.pairwise_append.mp h.uuids).1
  native := fun x hx => h.native x (List.mem_append_left _ hx)
  distinct := fun x hx => h.distinct x (List.mem_append_left _ hx)
  encodable := fun x hx => h.encodable x (List.mem_append_left _ hx)
  plain := fun x hx => h.plain x (List.mem_append_left _ hx)

/-! ## the rows in memory -/

namespace MemoryEventHistoryStore

section
variable {store : MemoryEventHistoryStore} {num : FloatLit → ℚ} {b : Builtins}

theorem lastSlice_eq {α : Type} {n : Nat} (h : 1 ≤ n) (l : List α) : lastSlice n l = l.rtake n :=
  if_neg (by omega)

theorem get_foldl_appendOne {row : Dict Str Json} {k : Str} : ∀ {ks : List Str}
    {events : MemoryHistory}, ks.Nodup → (ks.foldl (store.appendOne row) events).get k
      = if k ∈ ks then some (lastSlice store.maxEventsPerKey ((events.get k).getD [] ++ [row]))
        else events.get k
  | [], events, _ => rfl
  | k' :: ks, events, h => by
    obtain ⟨hk', hks⟩ := List.nodup_cons.mp h
    rw [List.foldl_cons, get_foldl_appendOne hks]
    unfold appendOne
    rw [Dict.get_set]
    by_cases hk : k = k'
    · subst hk
      rw [if_neg hk', if_pos rfl, if_pos List.mem_cons_self]
    · rw [if_neg hk]
      simp only [List.mem_cons, hk, false_or]

theorem keys_foldl_appendOne {row : Dict Str Json} {keys : List Str} : ∀ {ks : List Str}
    {events : MemoryHistory}, ks ⊆ keys → events.keys ⊆ keys →
    (ks.foldl (store.appendOne row) events).keys ⊆ keys
  | [], _, _, h => h
  | k' :: ks, events, hks, h => by
    obtain ⟨hk', hks⟩ := List.cons_subset.mp hks
    have he : (store.appendOne row events k').keys ⊆ keys :=
      List.Subset.trans (Dict.keys_set ..) (List.cons_subset.mpr ⟨hk', h⟩)
    exact @keys_foldl_appendOne row keys ks _ hks he

theorem lastSlice_append {α : Type} (n : Nat) (l m : List α) :
    lastSlice n (lastSlice n l ++ m) = lastSlice n (l ++ m) := by
  unfold lastSlice
  split
  · rfl
  · exact List.rtake_rtake_append n l m

theorem lastSlice_map {α β : Type} (f : α → β) (n : Nat) (l : List α) :
    lastSlice n (l.map f) = (lastSlice n l).map f := by
  unfold lastSlice
  split
  · rfl
  · exact List.rtake_map f n l

theorem after_concat (run : List Append) (a : Append) :
    store.after (run ++ [a]) = store.append (store.after run) a := by
  unfold after
  rw [List.foldl_append]
  rfl

/-- **the rows of a key** are the last ones of its log, when all keys fit -/
theorem rows_after {keys : List Str} (hkeys : keys.length ≤ store.maxKeys) {run : List Append} :
    (∀ a ∈ run, a.keys.Nodup) → (∀ a ∈ run, a.keys ⊆ keys) →
    (store.after run).keys ⊆ keys ∧ ∀ k, ((store.after run).get k).getD []
      = lastSlice store.maxEventsPerKey ((logOf k run).map Append.entry) := by
  induction run using List.reverseRecOn with
  | nil =>
    refine fun _ _ => ⟨List.nil_subset _, fun k => ?_⟩
    unfold lastSlice
    split
    · rfl
    · exact (List.rtake_nil ..).symm
  | append_singleton run a ih =>
    intro hnd hin
    obtain ⟨hsub, hget⟩ := ih (fun x hx => hnd x (List.mem_append_left _ hx))
      fun x hx => hin x (List.mem_append_left _ hx)
    have ha : a ∈ run ++ [a] := List.mem_append_right _ List.mem_cons_self
    have hsub' : (a.keys.foldl (store.appendOne a.entry) (store.after run)).keys ⊆ keys :=
      keys_foldl_appendOne (hin a ha) hsub
    have hevict : store.evict (a.keys.foldl (store.appendOne a.entry) (store.after run))
        = a.keys.foldl (store.appendOne a.entry) (store.after run) := by
      unfold evict
      rw [Nat.sub_eq_zero_of_le ((Dict.size_le hsub').trans hkeys), Dict.dropFirst_zero]
    rw [after_concat]
    unfold append
    rw [hevict]
    refine ⟨hsub', fun k => ?_⟩
    rw [get_foldl_appendOne (hnd a ha)]
    by_cases hk : k ∈ a.keys
    · rw [if_pos hk, Option.getD_some, hget k, lastSlice_append, logOf_concat_of_mem run hk,
        List.map_append]
      rfl
    · rw [if_neg hk, hget k, logOf_concat_of_not_mem run hk]

theorem get_after {keys : List Str} (hcap : 1 ≤ store.maxEventsPerKey)
    (hkeys : keys.length ≤ store.maxKeys) {red : RedisEventHistoryStore} {run : List Append}
    (h : EngineRun num red run) (hin : ∀ a ∈ run, a.keys ⊆ keys) (k : Str) :
    ((store.after run).get k).getD []
      = ((logOf k run).map Append.entry).rtake store.maxEventsPerKey := by
  rw [(rows_after hkeys h.distinct hin).2 k, lastSlice_eq hcap]

theorem recordedOf_entry (a : Append) : recordedOf num a.entry = num a.recordedAt := by
  unfold recordedOf Append.entry
  rw [Dict.get_set, if_pos rfl]

end

end MemoryEventHistoryStore

/-! ## the sorted sets in Redis -/

namespace SortedSet

/-- an element with the largest score goes to the end -/
theorem insert_last {e : ℚ × Str} : ∀ {z : SortedSet}, (∀ f ∈ z, f.1 < e.1) →
    insert e z = z ++ [e]
  | [], _ => rfl
  | f :: z, h => by
    unfold insert
    rw [if_pos (.inl (h f List.mem_cons_self)),
      insert_last fun g hg => h g (List.mem_cons_of_mem _ hg)]
    rfl

/-- the script, for an element with the largest score and a new member -/
theorem appendScript_last {score floor : ℚ} {member : Str} {cap : Nat} {z : SortedSet}
    (hs : ∀ e ∈ z, e.1 < score) (hm : ∀ e ∈ z, e.2 ≠ member) :
    appendScript score member floor cap z
      = (z.filter (fun e => decide (floor < e.1)) ++ [(score, member)]).rtake cap := by
  have hnew : (z.filter fun e => decide (floor < e.1)).filter (fun e => decide (e.2 ≠ member))
      = z.filter fun e => decide (floor < e.1) :=
    List.filter_eq_self.mpr fun e he => decide_eq_true (hm e (List.mem_filter.mp he).1)
  unfold appendScript add
  rw [hnew, insert_last fun e he => hs e (List.mem_filter.mp he).1]
  simp only
  split
  · rfl
  · rw [List.rtake_of_length_le (by omega)]

end SortedSet

namespace RedisEventHistoryStore

section
variable {store : RedisEventHistoryStore} {num : FloatLit → ℚ} {b : Builtins}

theorem key_injective (store : RedisEventHistoryStore) : Function.Injective store.key :=
  fun k k' h => List.append_cancel_left (List.append_cancel_left h)

/-- the text of an entry -/
def textOf (row : Dict Str Json) : Str := (Json.obj row.items).sortKeys.render .default

def memberOf (a : Append) : Str := a.uuid.hex ++ (str ":" ++ textOf a.entry)

/-- the element of a sorted set that an append adds -/
def elementOf (num : FloatLit → ℚ) (a : Append) : ℚ × Str := (num a.recordedAt, memberOf a)

theorem dumpsRow_text {row : Dict Str Json} {text : Str} (h : dumpsRow row = .ok text) :
    text = textOf row := by
  unfold dumpsRow Json.dumps at h
  split at h
  · rename_i s hs
    obtain rfl := Except.ok.inj h
    exact (Option.ite_some_none_eq_some.mp hs).2.symm
  · cases h

/-- rows that JSON can carry are read back -/
theorem roundTrips_of {row : Dict Str Json}
    (hw : (Json.obj row.items).sortKeys.writable false = true)
    (hf : (Json.obj row.items).sortKeys.fuse = (Json.obj row.items).sortKeys) : RoundTrips row := by
  refine ⟨textOf row, ?_, (loads_render valid_default hw).trans (congrArg some hf)⟩
  unfold dumpsRow Json.dumps
  rw [show (!true) = false from rfl, if_pos hw]
  rfl

theorem memberOf_ne {a a' : Append} (h : a.uuid.hex ≠ a'.uuid.hex) : memberOf a ≠ memberOf a' :=
  fun he => h (append_colon_injective a.uuid.no_colon a'.uuid.no_colon he).1

theorem appendTo_other {a : Append} {member k k' : Str} {db : RedisHistory} (h : k ≠ k') :
    store.appendTo num a member db k' (store.key k) = db (store.key k) := by
  unfold appendTo
  rw [Function.update_of_ne fun he => h (key_injective store he)]

/-- the loop runs the script once for each key -/
theorem appendEach_ok {a : Append} {member k : Str} : ∀ {ks : List Str} {db : RedisHistory},
    ks.Nodup → (∀ k ∈ ks, encodable (store.key k) = true) →
    (store.appendEach num a member ks db).2 (store.key k)
      = if k ∈ ks then store.appendTo num a member db k (store.key k) else db (store.key k)
  | [], _, _, _ => rfl
  | k' :: ks, db, h, he => by
    obtain ⟨hk', hks⟩ := List.nodup_cons.mp h
    unfold appendEach
    rw [if_pos (he k' List.mem_cons_self),
      appendEach_ok hks fun k hk => he k (List.mem_cons_of_mem _ hk)]
    by_cases hk : k = k'
    · subst hk
      rw [if_neg hk', if_pos List.mem_cons_self]
    · have hsame := @appendTo_other store num a member k k' db hk
      have hset : store.setOf a.now (store.appendTo num a member db k') k
          = store.setOf a.now db k := by
        unfold setOf Windows.live
        rw [hsame]
      have hto : store.appendTo num a member (store.appendTo num a member db k') k (store.key k)
          = store.appendTo num a member db k (store.key k) := by
        unfold appendTo at hset ⊢
        rw [Function.update_self, Function.update_self, hset]
      rw [hto, hsame]
      simp only [List.mem_cons, hk, false_or]

/-- what the server holds under a key, after the appends `run` -/
def Stored (store : RedisEventHistoryStore) (num : FloatLit → ℚ) (run : List Append) (k : Str) :
    Option (Window SortedSet ℚ) → Prop
  | none => logOf k run = []
  | some w => ∃ last ∈ run,
      w.expiresAt = some (last.now + (store.windowSeconds + 60 : Int)) ∧
      List.Recent Prod.fst store.maxEventsPerKey (last.now - store.windowSeconds) w.value
        ((logOf k run).map (elementOf num)) ∧
      ∀ a ∈ logOf k run, num a.recordedAt ≤ last.now

/-- what a command sees of it holds the recent entries -/
theorem Stored.recent {run : List Append} {k : Str} {db : RedisHistory} {now : ℚ}
    (h : store.Stored num run k (db (store.key k))) (hnow : ∀ a ∈ run, a.now ≤ now) :
    List.Recent Prod.fst store.maxEventsPerKey (now - store.windowSeconds)
      (store.setOf now db k) ((logOf k run).map (elementOf num)) := by
  unfold setOf Windows.live
  rcases hw : db (store.key k) with _ | w
  · rw [hw] at h
    rw [show logOf k run = [] from h]
    exact .of_le fun x hx => by cases hx
  · rw [hw] at h
    obtain ⟨last, hlast, hexp, hrecent, hle⟩ := h
    have hln := hnow last hlast
    by_cases hlive : w.LiveAt now
    · rw [Option.filter_some_pos (by simpa using hlive)]
      exact hrecent.mono (sub_le_sub_right hln _)
    · rw [Option.filter_some_neg (by simpa using hlive)]
      refine .of_le fun x hx => ?_
      obtain ⟨a, ha, rfl⟩ := List.mem_map.mp hx
      have hend : last.now + (store.windowSeconds + 60 : Int) ≤ now := by
        by_contra hlt
        refine hlive fun e he => ?_
        rw [hexp] at he
        obtain rfl := Option.mem_some_iff.mp he
        exact lt_of_not_ge hlt
      have hax := hle a ha
      show num a.recordedAt ≤ now - store.windowSeconds
      push_cast at hend
      linarith

theorem growing_log {run : List Append} (h : EngineRun num store run) (k : Str) :
    List.Growing Prod.fst ((logOf k run).map (elementOf num)) := by
  unfold List.Growing
  rw [List.pairwise_map]
  exact h.increasing.sublist List.filter_sublist

/-- what one append leaves under each key -/
theorem stored_append {run : List Append} {a : Append} {db : RedisHistory} {k : Str}
    (h : EngineRun num store (run ++ [a])) (hcap : 1 ≤ store.maxEventsPerKey)
    (hdb : store.Stored num run k (db (store.key k))) :
    store.Stored num (run ++ [a]) k ((store.append num db a).2 (store.key k)) := by
  have ha : a ∈ run ++ [a] := List.mem_append_right _ List.mem_cons_self
  obtain ⟨text, hdumps, -⟩ := h.native a ha
  have happend : store.append num db a = store.appendEach num a (memberOf a) a.keys db := by
    unfold append
    rw [hdumps, dumpsRow_text hdumps]
    rfl
  rw [happend, appendEach_ok (h.distinct a ha) (h.encodable a ha)]
  by_cases hk : k ∈ a.keys
  · rw [if_pos hk]
    have hclock : ∀ x ∈ run, x.now ≤ a.now := fun x hx =>
      (List.pairwise_append.mp h.clock).2.2 x hx a List.mem_cons_self
    have hrecent := hdb.recent hclock
    -- the elements that are there come from earlier appends
    have hold : ∀ e ∈ store.setOf a.now db k, ∃ x ∈ run, elementOf num x = e := by
      intro e he
      obtain ⟨x, hx, hxe⟩ := List.mem_map.mp (hrecent.suffix.subset he)
      exact ⟨x, (List.mem_filter.mp hx).1, hxe⟩
    have hscript : SortedSet.appendScript (num a.recordedAt) (memberOf a)
        (num a.recordedAt - store.windowSeconds) store.maxEventsPerKey (store.setOf a.now db k)
        = ((store.setOf a.now db k).filter (fun e =>
            decide (num a.recordedAt - store.windowSeconds < e.1)) ++ [elementOf num a]).rtake
            store.maxEventsPerKey := by
      refine SortedSet.appendScript_last (fun e he => ?_) fun e he => ?_
      · obtain ⟨x, hx, rfl⟩ := hold e he
        exact (List.pairwise_append.mp h.increasing).2.2 x hx a List.mem_cons_self
      · obtain ⟨x, hx, rfl⟩ := hold e he
        exact memberOf_ne ((List.pairwise_append.mp h.uuids).2.2 x hx a List.mem_cons_self)
    have hgrow := growing_log h k
    rw [logOf_concat_of_mem run hk, List.map_append] at hgrow
    unfold appendTo
    rw [Function.update_self]
    refine ⟨a, ha, rfl, ?_, fun x hx => ?_⟩
    · show List.Recent _ _ _ (SortedSet.appendScript ..) _
      rw [hscript, logOf_concat_of_mem run hk, List.map_append]
      exact hrecent.append hgrow hcap (sub_le_sub_right (h.recorded a ha) _)
    · have hx' := (List.mem_filter.mp hx).1
      refine (h.recorded x hx').trans ?_
      rcases List.mem_append.mp hx' with hr | hr
      · exact hclock x hr
      · rw [List.mem_singleton.mp hr]
  · rw [if_neg hk]
    unfold Stored at hdb ⊢
    rw [logOf_concat_of_not_mem run hk]
    cases hw : db (store.key k) with
    | none =>
      rw [hw] at hdb
      exact hdb
    | some w =>
      rw [hw] at hdb
      obtain ⟨last, hlast, hrest⟩ := hdb
      exact ⟨last, List.mem_append_left _ hlast, hrest⟩

/-- **what the server holds after a run** -/
theorem stored_after {run : List Append} (hcap : 1 ≤ store.maxEventsPerKey) (k : Str) :
    EngineRun num store run →
    store.Stored num run k ((store.after num run) (store.key k)) := by
  induction run using List.reverseRecOn with
  | nil => exact fun _ => rfl
  | append_singleton run a ih =>
    intro h
    have hafter : store.after num (run ++ [a]) = (store.append num (store.after num run) a).2 := by
      unfold after
      rw [List.foldl_append]
      rfl
    rw [hafter]
    exact stored_append h hcap (ih h.of_concat)

/-! ## queries -/

theorem payloadOf_append (u : Uuid) (text : Str) :
    payloadOf (u.hex ++ (str ":" ++ text)) = text := by
  have hd : (u.hex ++ (str ":" ++ text)).dropWhile (fun c => decide (c ≠ cp ':'))
      = str ":" ++ text := by
    rw [List.dropWhile_append_of_pos]
    · rfl
    · intro c hc
      rw [decide_eq_true_eq]
      rintro rfl
      exact u.no_colon hc
  unfold payloadOf
  rw [hd]
  rfl

theorem payloadOf_memberOf (a : Append) : payloadOf (memberOf a) = textOf a.entry :=
  payloadOf_append a.uuid (textOf a.entry)

theorem rowOf_memberOf {a : Append} (h : RoundTrips a.entry) :
    rowOf (memberOf a) = some (sortRow a.entry.items) := by
  obtain ⟨text, hdumps, hloads⟩ := h
  unfold rowOf
  rw [payloadOf_memberOf, ← dumpsRow_text hdumps, hloads]

/-- the event type reads alike in both rows -/
theorem lookup_sortRow {row : Dict Str Json} {k : Str} (h : ∀ v ∈ row.get k, v.sortKeys = v) :
    Json.lookup k (sortRow row.items) = row.get k := by
  have hnodup : ((sortRow row.items).reverse.map Prod.fst).Nodup := by
    rw [List.map_reverse, List.nodup_reverse]
    exact (keys_sortRow row.items).nodup_iff.mpr row.nodup
  have hd : Json.lookup k (sortRow row.items) = (Dict.mk _ hnodup).get k := rfl
  rw [hd]
  refine Option.ext fun v => ?_
  rw [Dict.get_eq_some, List.mem_reverse, mem_sortRow]
  constructor
  · rintro ⟨u, hu, rfl⟩
    have hg := Dict.get_eq_some.mpr hu
    rw [h u hg]
    exact hg
  · intro hg
    exact ⟨v, Dict.get_eq_some.mp hg, h v hg⟩

/-- whether the row of an append may be among the answers -/
def picks (b : Builtins) (eventTypes : Option (List Str)) (a : Append) : Bool :=
  typeAllowed b eventTypes (a.entry.get (str "event_type"))

theorem collect_eq {eventTypes : Option (List Str)} {limit : Nat} : ∀ {l : List Append}
    {rows : List (List (Str × Json))}, (∀ a ∈ l, RoundTrips a.entry) →
    (∀ a ∈ l, ∀ v ∈ a.entry.get (str "event_type"), v.sortKeys = v) → rows.length < limit →
    collect b eventTypes limit (l.map memberOf) rows = rows ++
      ((l.filter (picks b eventTypes)).map fun a => sortRow a.entry.items).take
        (limit - rows.length)
  | [], rows, _, _, _ => by
    rw [List.map_nil, List.filter_nil, List.map_nil, List.take_nil, List.append_nil]
    rfl
  | a :: l, rows, hn, hp, hlt => by
    have hn' : ∀ x ∈ l, RoundTrips x.entry := fun x hx => hn x (List.mem_cons_of_mem _ hx)
    have hp' : ∀ x ∈ l, ∀ v ∈ x.entry.get (str "event_type"), v.sortKeys = v :=
      fun x hx => hp x (List.mem_cons_of_mem _ hx)
    have hpick : typeAllowed b eventTypes
        (Json.lookup (str "event_type") (sortRow a.entry.items)) = picks b eventTypes a := by
      rw [lookup_sortRow (hp a List.mem_cons_self)]
      rfl
    rw [List.map_cons, collect, rowOf_memberOf (hn a List.mem_cons_self)]
    simp only [hpick]
    by_cases hk : picks b eventTypes a = true
    · rw [if_pos hk, List.filter_cons_of_pos hk, List.map_cons]
      by_cases hlim : limit ≤ (rows ++ [sortRow a.entry.items]).length
      · rw [if_pos hlim]
        rw [List.length_append, List.length_singleton] at hlim
        rw [show limit - rows.length = 1 by omega]
        rfl
      · rw [if_neg hlim, collect_eq hn' hp' (Nat.lt_of_not_le hlim)]
        rw [List.length_append, List.length_singleton] at hlim ⊢
        rw [show limit - rows.length = limit - (rows.length + 1) + 1 by omega,
          List.take_succ_cons, List.append_assoc]
        rfl
    · rw [if_neg hk, List.filter_cons_of_neg hk, collect_eq hn' hp' hlt]

end

end RedisEventHistoryStore

section
variable {num : FloatLit → ℚ} {store : RedisEventHistoryStore} {mem : MemoryEventHistoryStore}
  {b : Builtins} {run : List Append}

/-- the answers to a query, as appends: the newest first -/
def answers (num : FloatLit → ℚ) (b : Builtins) (cap : Nat) (run : List Append) (k : Str)
    (eventTypes : Option (List Str)) (since : ℚ) : List Append :=
  (((logOf k run).rtake cap).filter fun a => decide (since < num a.recordedAt) &&
    RedisEventHistoryStore.picks b eventTypes a).reverse

theorem memory_query {keys : List Str} (h : EngineRun num store run)
    (hcap : 1 ≤ mem.maxEventsPerKey) (hkeys : keys.length ≤ mem.maxKeys)
    (hin : ∀ a ∈ run, a.keys ⊆ keys) (k : Str) (eventTypes : Option (List Str)) (since : ℚ)
    (limit : Nat) :
    MemoryEventHistoryStore.query b num (mem.after run) k eventTypes since limit
      = ((answers num b mem.maxEventsPerKey run k eventTypes since).map Append.entry).take
          limit := by
  unfold MemoryEventHistoryStore.query answers
  rw [MemoryEventHistoryStore.get_after hcap hkeys h hin k, List.rtake_map, List.filter_map,
    List.map_reverse]
  congr 4
  funext a
  show (decide (since < MemoryEventHistoryStore.recordedOf num a.entry) && _) = _
  rw [MemoryEventHistoryStore.recordedOf_entry]
  rfl

theorem redis_query (h : EngineRun num store run) (hcap : 1 ≤ store.maxEventsPerKey)
    {now since : ℚ} (hnow : ∀ a ∈ run, a.now ≤ now) (hsince : now - store.windowSeconds ≤ since)
    {k : Str} (hk : encodable (store.key k) = true) (eventTypes : Option (List Str)) {limit : Nat}
    (hlimit : 1 ≤ limit) :
    store.query b now (store.after num run) k eventTypes since limit
      = .ok (((answers num b store.maxEventsPerKey run k eventTypes since).map
          fun a => sortRow a.entry.items).take limit) := by
  have hrecent := (RedisEventHistoryStore.stored_after hcap k h).recent hnow
  have hfilter := hrecent.filter_eq (RedisEventHistoryStore.growing_log h k) hsince
  -- the members above `since`, as appends
  have hmembers : ((store.setOf now (store.after num run) k).filter
      (fun e => decide (since < e.1))).reverse.map Prod.snd
      = (((logOf k run).rtake store.maxEventsPerKey).filter fun a =>
          decide (since < num a.recordedAt)).reverse.map RedisEventHistoryStore.memberOf := by
    rw [hfilter, List.rtake_map, List.filter_map, ← List.map_reverse, List.map_map]
    rfl
  have hrun : ∀ a ∈ (((logOf k run).rtake store.maxEventsPerKey).filter fun a =>
      decide (since < num a.recordedAt)).reverse, a ∈ run := by
    intro a ha
    have hl := (List.rtake_suffix _ _).subset (List.mem_filter.mp (List.mem_reverse.mp ha)).1
    exact (List.mem_filter.mp hl).1
  unfold RedisEventHistoryStore.query
  rw [if_pos hk, hmembers, RedisEventHistoryStore.collect_eq (fun a ha => h.native a (hrun a ha))
    (fun a ha => h.plain a (hrun a ha)) hlimit]
  unfold answers
  rw [List.nil_append, List.length_nil, Nat.sub_zero, List.filter_reverse, List.filter_filter]
  congr 6
  funext a
  exact Bool.and_comm _ _

/-- the rows are the same in pairs -/
theorem same_rows (l : List Append) (limit : Nat) :
    List.Forall₂ SameRow ((l.map Append.entry).take limit)
      ((l.map fun a => sortRow a.entry.items).take limit) := by
  rw [← List.map_take, ← List.map_take, List.forall₂_map_left_iff, List.forall₂_map_right_iff,
    List.forall₂_same]
  exact fun a _ => (sortRow_sortRow a.entry.items).symm

end

/-- **The stores of the history answer alike** after appends as the engine makes them, to every
query of the last `window_seconds`. -/
theorem history_alike (num : FloatLit → ℚ) (b : Builtins) (mem : MemoryEventHistoryStore)
    (red : RedisEventHistoryStore) (hcap : mem.maxEventsPerKey = red.maxEventsPerKey)
    (hcap1 : 1 ≤ red.maxEventsPerKey) (run : List Append) (hrun : EngineRun num red run)
    (hkeys : (run.flatMap Append.keys).dedup.length < mem.maxKeys)
    (k : Str) (hk : encodable (red.key k) = true) (eventTypes : Option (List Str))
    (now since : ℚ) (hnow : ∀ a ∈ run, a.now ≤ now) (hsince : now - red.windowSeconds ≤ since)
    (limit : Nat) (hlimit : 1 ≤ limit) :
    ∃ rows, red.query b now (red.after num run) k eventTypes since limit = .ok rows ∧
      List.Forall₂ SameRow
        (MemoryEventHistoryStore.query b num (mem.after run) k eventTypes since limit) rows := by
  have hin : ∀ a ∈ run, a.keys ⊆ (run.flatMap Append.keys).dedup := fun a ha k hk =>
    List.mem_dedup.mpr (List.mem_flatMap.mpr ⟨a, ha, hk⟩)
  refine ⟨_, redis_query hrun hcap1 hnow hsince hk eventTypes hlimit, ?_⟩
  rw [memory_query hrun (by omega) hkeys.le hin, hcap]
  exact same_rows _ limit

/-! ## a run, and three that are not the engine's -/

def MemoryEventHistoryStore.sample : MemoryEventHistoryStore := ⟨10, 100⟩

def RedisEventHistoryStore.sample : RedisEventHistoryStore := ⟨str "sec_audit", 100, 3600⟩

/-- the seconds of a float without a fraction -/
def wholeSeconds (f : FloatLit) : ℚ := ofDecimal (f.text.takeWhile fun c => decide (c ≠ cp '.'))

def addressKey : ScopeKey :=
  .of (str "ip") (str "9.9.9.9") (by decide)

/-- a lone surrogate as its key -/
def surrogateKey : ScopeKey :=
  .of (str "user") [⟨0xD800, by decide⟩] (by decide)

/-- an append at second 1 -/
def recorded (eventType : Json) (scopeKeys : List ScopeKey) : Append where
  summary := ⟨[(str "event_type", eventType)], List.nodup_singleton _⟩
  scopeKeys
  recordedAt := ⟨str "1.0", by decide⟩
  uuid := ⟨str "0a", by decide⟩
  now := 1

def userScope : ScopeKey :=
  .of (str "user") (str "7") (by decide)

def MemoryEventHistoryStore.small : MemoryEventHistoryStore := ⟨10, 2⟩

/-- two rows a key, for 100 seconds -/
def RedisEventHistoryStore.small : RedisEventHistoryStore := ⟨str "sec_audit", 2, 100⟩

def visitAt (eventType : String) (scopeKeys : List ScopeKey) (second : FloatLit)
    (uuid : Uuid) (now : ℚ) : Append :=
  ⟨⟨[(str "event_type", .string (str eventType))], List.nodup_singleton _⟩, scopeKeys, second, uuid,
    now⟩

/-- the uuids of the samples -/
def uuidA : Uuid := ⟨str "0a", by decide⟩

def uuidB : Uuid := ⟨str "0b", by decide⟩

def uuidC : Uuid := ⟨str "0c", by decide⟩

def uuidD : Uuid := ⟨str "0d", by decide⟩

def uuidE : Uuid := ⟨str "0e", by decide⟩

/-- three logins of an address and a logout; the user of the second and the last is known -/
def visits : List Append :=
  [visitAt "login" [addressKey] ⟨str "10.0", by decide⟩ uuidA 10,
    visitAt "login" [addressKey, userScope] ⟨str "50.0", by decide⟩ uuidB 51,
    visitAt "login" [addressKey] ⟨str "90.0", by decide⟩ uuidC 90,
    visitAt "logout" [addressKey, userScope] ⟨str "150.0", by decide⟩ uuidD 150]

theorem visits_engine : EngineRun wholeSeconds .small visits where
  increasing := by decide +kernel
  clock := by decide +kernel
  recorded := by decide +kernel
  uuids := by decide +kernel
  native := by
    unfold visits
    simp only [List.forall_mem_cons]
    exact ⟨RedisEventHistoryStore.roundTrips_of rfl rfl,
      RedisEventHistoryStore.roundTrips_of rfl rfl, RedisEventHistoryStore.roundTrips_of rfl rfl,
      RedisEventHistoryStore.roundTrips_of rfl rfl, fun _ h => absurd h List.not_mem_nil⟩
  distinct := by decide +kernel
  encodable := by decide +kernel
  plain := by
    unfold visits
    simp only [List.forall_mem_cons]
    refine ⟨?_, ?_, ?_, ?_, fun _ h => absurd h List.not_mem_nil⟩ <;>
      · rintro v ⟨⟩
        rfl

/-- the cap has cut the first two rows of the address in both stores; the second is at the edge of
the window: Redis has pruned it under the user, and the memory store has not -/
theorem history_alike_visits : ∃ rows rows',
    ((MemoryEventHistoryStore.small.after visits).get addressKey.asString).map List.length
      = some 2 ∧
    RedisEventHistoryStore.small.query .sample 150
      (RedisEventHistoryStore.small.after wholeSeconds visits) addressKey.asString
      (some [str "login"]) 50 1 = .ok rows ∧
    List.Forall₂ SameRow (MemoryEventHistoryStore.query .sample wholeSeconds
      (MemoryEventHistoryStore.small.after visits) addressKey.asString (some [str "login"]) 50 1)
      rows ∧
    ((MemoryEventHistoryStore.small.after visits).get userScope.asString).map List.length = some 2 ∧
    (RedisEventHistoryStore.small.setOf 150
      (RedisEventHistoryStore.small.after wholeSeconds visits) userScope.asString).length = 1 ∧
    RedisEventHistoryStore.small.query .sample 150
      (RedisEventHistoryStore.small.after wholeSeconds visits) userScope.asString none 50 10
      = .ok rows' ∧
    List.Forall₂ SameRow (MemoryEventHistoryStore.query .sample wholeSeconds
      (MemoryEventHistoryStore.small.after visits) userScope.asString none 50 10) rows' := by
  obtain ⟨rows, hr, ha⟩ := history_alike wholeSeconds .sample .small .small rfl (by decide) visits
    visits_engine (by decide +kernel) addressKey.asString (by decide) (some [str "login"]) 150 50
    (by decide +kernel) (by decide +kernel) 1 (by decide)
  obtain ⟨rows', hr', ha'⟩ := history_alike wholeSeconds .sample .small .small rfl (by decide) visits
    visits_engine (by decide +kernel) userScope.asString (by decide) none 150 50 (by decide +kernel)
    (by decide +kernel) 10 (by decide)
  exact ⟨rows, rows', by decide +kernel, hr, ha, by decide +kernel, by decide +kernel, hr', ha'⟩

/-- builtins that print a mapping key by key -/
def printing : Builtins := { Builtins.sample with
  str v := match v with
    | .obj l => l.flatMap Prod.fst
    | _ => [] }

/-- how many rows each store answers, of the one append `a`, to a query for the key `k` -/
def rowCounts (b : Builtins) (a : Append) (k : ScopeKey) (eventTypes : Option (List Str)) :
    Nat × Except Exc Nat :=
  ((MemoryEventHistoryStore.query b wholeSeconds (MemoryEventHistoryStore.sample.after [a])
      k.asString eventTypes 0 10).length,
    (RedisEventHistoryStore.sample.query b 1
      (RedisEventHistoryStore.sample.after wholeSeconds [a]) k.asString eventTypes 0 10).map
        List.length)

/-- a key given twice is one member in Redis, a key with no UTF-8 form cannot be sent, and an event
type that is a mapping is printed with its keys in order -/
theorem history_differs :
    rowCounts .sample (recorded (.string (str "login")) [addressKey, addressKey]) addressKey none
      = (2, .ok 1) ∧
    rowCounts .sample (recorded (.string (str "login")) [surrogateKey]) surrogateKey none
      = (1, .error .unicodeError) ∧
    rowCounts printing (recorded (.obj [(str "b", .null), (str "a", .null)]) [addressKey])
      addressKey (some [str "ba"]) = (1, .ok 0) := by
  decide +kernel

end SecAudit
