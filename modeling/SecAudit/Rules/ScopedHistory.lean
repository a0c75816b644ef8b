import SecAudit.Data.Merge
import SecAudit.Rules.Eviction

/-!
# Reading back the history of a scope

* `ScopedHistoryReader.events`  the newest rows under the keys of a scope, within the bounds that a
                    rule declared;
* `stored`          the appended events whose rows are still under a key;
* `found`           the events that `events` returns, `copies` the rows that it may return, and
                    `Readable` the events that these are of;
* `found_eq`        the cuts of the single keys do not matter;
* `newest_events`   the reader returns the newest events of the scope, each once, exactly when the
                    second copies of an event come too late.
-/

set_option linter.unusedVariables false

namespace SecAudit
open Py

theorem maxEvents_hundred : (0 : Int) < 100 := by decide

structure ContextRequirements where
  scopes : List Str
  eventTypes : Option (List Str) := none
  windowSeconds : Int := 900
  maxEvents : Int := 100
  windowSeconds_pos : 0 < windowSeconds := by decide
  maxEvents_pos : 0 < maxEvents := by first | exact maxEvents_hundred | decide

/-! ## rows of a key, and of several -/

section
-- rows, or what they are made of
variable {ρ : Type} (row : ρ → Dict Str Json) (b : Builtins) (num : FloatLit → ℚ)

/-- newer than `since`, and of one of the types -/
def admitted (eventTypes : Option (List Str)) (since : ℚ) (x : ρ) : Bool :=
  decide (since < MemoryEventHistoryStore.recordedOf num (row x)) &&
    typeAllowed b eventTypes ((row x).get (str "event_type"))

/-- `query` of the rows of a key -/
def queryRows (rows : List ρ) (eventTypes : Option (List Str)) (since : ℚ) (limit : Nat) : List ρ :=
  ((rows.filter (admitted row b num eventTypes since)).reverse).take limit

/-- the order of `rows.sort(key=…, reverse=True)` -/
def Newer (x y : ρ) : Prop :=
  MemoryEventHistoryStore.recordedOf num (row y) ≤ MemoryEventHistoryStore.recordedOf num (row x)

instance (x y : ρ) : Decidable (Newer row num x y) := inferInstanceAs (Decidable (_ ≤ _))

instance : Std.Total (Newer row num) := ⟨fun _ _ => le_total _ _⟩

instance : IsTrans ρ (Newer row num) := ⟨fun _ _ _ hxy hyz => le_trans hyz hxy⟩

/-- the queries of the keys together, sorted and cut -/
def readRows (rowsOf : Str → List ρ) (keys : List Str) (eventTypes : Option (List Str)) (since : ℚ)
    (limit : Nat) : List ρ :=
  ((keys.flatMap fun k => queryRows row b num (rowsOf k) eventTypes since limit).insertionSort
    (Newer row num)).take limit

end

/-! ## the reader -/

structure ScopedHistoryReader where
  /-- the rows of the store, if there is one -/
  history : Option MemoryHistory
  scopeKeys : List ScopeKey
  requirements : Option ContextRequirements
  now : ℚ

namespace ScopedHistoryReader

section
variable (reader : ScopedHistoryReader) (b : Builtins) (num : FloatLit → ℚ)

/-- `self.scope_keys.get(scope, ())` -/
def keysOf (scope : Str) : List Str :=
  (reader.scopeKeys.filter fun k => decide (k.scope = scope)).map ScopeKey.asString

/-- `_ensure_scope_allowed` -/
def ensureScopeAllowed (scope : Str) : Except Exc Unit :=
  let error := Except.error (Exc.valueError
    (str "Rule did not declare history scope " ++ b.repr (.string scope) ++ str "."))
  match reader.requirements with
  | none => error
  | some requirements => if scope ∈ requirements.scopes then .ok () else error

/-- `_bounded_event_types` -/
def boundedEventTypes (eventType : Option Str) (eventTypes : Option (List Str)) :
    Option (List Str) :=
  let requested := eventTypes.getD [] ++ eventType.toList
  match reader.requirements.bind ContextRequirements.eventTypes with
  | none => if requested = [] then none else some requested
  | some required => if requested = [] then some required
    else some (required.filter fun t => decide (t ∈ requested))

/-- `_bounded_limit` -/
def boundedLimit (limit : Option Int) : Int :=
  let maxEvents := (reader.requirements.map ContextRequirements.maxEvents).getD 100
  min maxEvents (limit.getD maxEvents)

/-- `_bounded_since` -/
def boundedSince (since : Option ℚ) (windowSeconds : Option Int) : ℚ :=
  let maxWindow := (reader.requirements.map ContextRequirements.windowSeconds).getD 900
  let lowerBound := reader.now - (min maxWindow (windowSeconds.getD maxWindow) : Int)
  match since with
  | none => lowerBound
  | some since => max since lowerBound

def events (scope : Str) (eventType : Option Str) (eventTypes : Option (List Str))
    (since : Option ℚ) (limit windowSeconds : Option Int) : Except Exc (List (Dict Str Json)) := do
  reader.ensureScopeAllowed b scope
  match reader.history with
  | none => return []
  | some rows =>
    if reader.keysOf scope = [] then return []
    else if reader.boundedLimit limit ≤ 0 then return []
    else
      let types := reader.boundedEventTypes eventType eventTypes
      let bound := reader.boundedSince since windowSeconds
      let n := (reader.boundedLimit limit).toNat
      let found := (reader.keysOf scope).flatMap fun k =>
        MemoryEventHistoryStore.query b num rows k types bound n
      return (found.insertionSort (Newer id num)).take n

def count (scope : Str) (eventType : Option Str) (eventTypes : Option (List Str))
    (windowSeconds : Option Int) : Except Exc Nat := do
  let events ← reader.events b num scope eventType eventTypes none none windowSeconds
  return events.length

end

end ScopedHistoryReader

/-! ## appended events -/

/-- the appends of a run, with their places -/
abbrev Appended := Nat × Append

def stamped (run : List Append) : List Appended := run.zipIdx.map Prod.swap

/-- what a run has appended to a key, as often as it did -/
def appendedTo (k : Str) (run : List Append) : List Appended :=
  (stamped run).flatMap fun e => (e.2.keys.filter fun k' => decide (k' = k)).map fun _ => e

/-- what of it is still stored -/
def stored (store : MemoryEventHistoryStore) (run : List Append) (k : Str) : List Appended :=
  (appendedTo k run).rtake (((store.after run).get k).getD []).length

namespace Appended

def row (e : Appended) : Dict Str Json := e.2.entry

/-- when it was recorded -/
def time (num : FloatLit → ℚ) (e : Appended) : ℚ := num e.2.recordedAt

end Appended

section
variable {store : MemoryEventHistoryStore} {num : FloatLit → ℚ} {run : List Append} {k : Str}

theorem lastSlice_suffix {α : Type} (n : Nat) (l : List α) : lastSlice n l <:+ l := by
  unfold lastSlice
  split
  · exact List.suffix_refl l
  · exact List.rtake_suffix n l

/-- the loop of a call leaves the latest rows of a key -/
theorem suffix_appendAll {row : Dict Str Json} : ∀ {ks : List Str} {events : MemoryHistory},
    ((ks.foldl (store.appendOne row) events).get k).getD []
      <:+ (events.get k).getD [] ++ (ks.filter fun k' => decide (k' = k)).map fun _ => row
  | [], events => by
    rw [List.filter_nil, List.map_nil, List.append_nil]
    exact List.suffix_refl _
  | k' :: ks, events => by
    rw [List.foldl_cons]
    refine (@suffix_appendAll row ks _).trans ?_
    unfold MemoryEventHistoryStore.appendOne
    rw [Dict.get_set]
    by_cases h : k' = k
    · subst h
      rw [if_pos rfl, List.filter_cons_of_pos (by simp), List.map_cons, Option.getD_some]
      obtain ⟨y, hy⟩ := lastSlice_suffix store.maxEventsPerKey ((events.get k').getD [] ++ [row])
      refine ⟨y, ?_⟩
      rw [← List.append_assoc, hy, List.append_assoc]
      rfl
    · rw [if_neg (Ne.symm h), List.filter_cons_of_neg (by simpa using h)]

/-- **the rows of a key are the latest ones that were appended to it**, whatever the limits of the
store are -/
theorem suffix_after : ((store.after run).get k).getD []
    <:+ MemoryEventHistoryStore.loggedRows k run := by
  induction run using List.reverseRecOn with
  | nil => exact List.nil_suffix
  | append_singleton run a ih =>
    rw [MemoryEventHistoryStore.after_concat, MemoryEventHistoryStore.append_eq,
      Dict.get_dropFirst, MemoryEventHistoryStore.loggedRows_concat]
    split
    · exact List.nil_suffix
    · obtain ⟨y, hy⟩ := ih
      refine suffix_appendAll.trans ⟨y, ?_⟩
      rw [← List.append_assoc, hy]

theorem map_stamped (run : List Append) : (stamped run).map Prod.snd = run := by
  unfold stamped
  rw [List.map_map]
  exact List.zipIdx_map_fst 0 run

theorem map_appendedTo : (appendedTo k run).map Appended.row
    = MemoryEventHistoryStore.loggedRows k run := by
  unfold appendedTo MemoryEventHistoryStore.loggedRows
  conv_rhs => rw [← map_stamped run, List.flatMap_map]
  rw [List.map_flatMap]
  refine List.flatMap_congr fun e _ => ?_
  rw [List.map_map]
  rfl

/-- what is stored are the rows of the key -/
theorem map_stored : (stored store run k).map Appended.row
    = ((store.after run).get k).getD [] := by
  unfold stored
  rw [← List.rtake_map, map_appendedTo]
  exact (List.suffix_iff_eq_drop.mp suffix_after).symm

theorem recordedOf_row (e : Appended) :
    MemoryEventHistoryStore.recordedOf num e.row = e.time num :=
  MemoryEventHistoryStore.recordedOf_entry e.2

/-- what is stored under a key is in the order of its times -/
theorem stored_pairwise (h : run.Pairwise fun a a' => num a.recordedAt ≤ num a'.recordedAt) :
    (stored store run k).Pairwise fun x y => x.time num ≤ y.time num := by
  refine List.Pairwise.sublist (List.rtake_suffix _ _).sublist ?_
  unfold appendedTo
  rw [List.pairwise_flatMap]
  constructor
  · intro e _
    rw [List.pairwise_map]
    exact List.pairwise_of_forall fun _ _ => le_rfl
  · have hs : (stamped run).Pairwise fun x y => x.time num ≤ y.time num := by
      rw [← map_stamped run, List.pairwise_map] at h
      exact h
    refine hs.imp fun {x y} hxy u hu v hv => ?_
    obtain ⟨-, -, rfl⟩ := List.mem_map.mp hu
    obtain ⟨-, -, rfl⟩ := List.mem_map.mp hv
    exact hxy

end

/-! ## what the reader finds -/

section
variable {ρ : Type} {row : ρ → Dict Str Json} {b : Builtins} {num : FloatLit → ℚ}
  {eventTypes : Option (List Str)} {since : ℚ}

theorem map_queryRows (rows : List ρ) (limit : Nat) :
    (queryRows row b num rows eventTypes since limit).map row
      = queryRows id b num (rows.map row) eventTypes since limit := by
  unfold queryRows
  rw [List.map_take, List.map_reverse, List.filter_map]
  rfl

/-- what rows are made of is read like them -/
theorem map_readRows (rowsOf : Str → List ρ) (keys : List Str) (limit : Nat) :
    (readRows row b num rowsOf keys eventTypes since limit).map row
      = readRows id b num (fun k => (rowsOf k).map row) keys eventTypes since limit := by
  unfold readRows
  rw [List.map_take, List.map_insertionSort (Newer row num) (Newer id num) row _
    (fun x _ y _ => Iff.rfl), List.map_flatMap]
  congr 3
  funext k
  exact map_queryRows (rowsOf k) limit

/-- **the cuts of the single keys do not matter** -/
theorem readRows_eq {rowsOf : Str → List ρ} {keys : List Str} (limit : Nat)
    (hsorted : ∀ k ∈ keys, (rowsOf k).Pairwise fun x y => Newer row num y x) :
    readRows row b num rowsOf keys eventTypes since limit
      = ((keys.flatMap fun k => ((rowsOf k).filter (admitted row b num eventTypes since)).reverse
        ).insertionSort (Newer row num)).take limit := by
  have h := List.take_insertionSort_flatMap (r := Newer row num)
    (fun x y z hxy hyz => le_trans hyz hxy) limit
    (keys.map fun k => ((rowsOf k).filter (admitted row b num eventTypes since)).reverse) (by
      intro l hl
      obtain ⟨k, hk, rfl⟩ := List.mem_map.mp hl
      rw [List.pairwise_reverse]
      exact (hsorted k hk).filter _)
  rw [List.flatMap_map, ← List.flatMap_def] at h
  exact h

end

/-- an event that a rule may read: of one of the types it requires and asks for, and in the window
and since the time it asks for -/
structure Relevant (b : Builtins) (num : FloatLit → ℚ) (requirements : ContextRequirements)
    (now : ℚ) (eventType : Option Str) (eventTypes : Option (List Str)) (since : Option ℚ)
    (windowSeconds : Option Int) (a : Append) : Prop where
  required : ∀ types ∈ requirements.eventTypes,
    typeText b (a.entry.get (str "event_type")) ∈ types
  requested : eventTypes.getD [] ++ eventType.toList ≠ [] →
    typeText b (a.entry.get (str "event_type")) ∈ eventTypes.getD [] ++ eventType.toList
  since : ∀ t ∈ since, t < num a.recordedAt
  window : now - (min requirements.windowSeconds
    (windowSeconds.getD requirements.windowSeconds) : Int) < num a.recordedAt

/-- the newest `n` events of `pool`, each once and newest first -/
structure NewestOf (num : FloatLit → ℚ) (pool : Appended → Prop) (n : Nat)
    (found : List Appended) : Prop where
  among : ∀ e ∈ found, pool e
  ordered : found.Pairwise fun x y => y.time num ≤ x.time num
  length : found.length ≤ n
  distinct : (found.map Prod.fst).Nodup
  complete : ∀ e, pool e → e.1 ∉ found.map Prod.fst →
    found.length = n ∧ ∀ x ∈ found, e.time num ≤ x.time num

namespace ScopedHistoryReader

section
variable (reader : ScopedHistoryReader) (store : MemoryEventHistoryStore) (run : List Append)
  (b : Builtins) (num : FloatLit → ℚ) (scope : Str) (eventType : Option Str)
  (eventTypes : Option (List Str)) (since : Option ℚ) (limit windowSeconds : Option Int)

/-- the appended events whose rows `events` returns -/
def found : List Appended :=
  readRows Appended.row b num (stored store run) (reader.keysOf scope)
    (reader.boundedEventTypes eventType eventTypes) (reader.boundedSince since windowSeconds)
    (reader.boundedLimit limit).toNat

/-- what is stored under the keys of the scope and admitted, each as often as it is stored: key by
key, the newest of a key first -/
def copies : List Appended :=
  (reader.keysOf scope).flatMap fun k => ((stored store run k).filter
    (admitted Appended.row b num (reader.boundedEventTypes eventType eventTypes)
      (reader.boundedSince since windowSeconds))).reverse

/-- an event that the rule may read and that is still stored under a key of the scope -/
def Readable (requirements : ContextRequirements) (e : Appended) : Prop :=
  (∃ k ∈ reader.keysOf scope, e ∈ stored store run k) ∧
    Relevant b num requirements reader.now eventType eventTypes since windowSeconds e.2

variable {reader store run b num scope eventType eventTypes since limit windowSeconds}

theorem ensure_ok {requirements : ContextRequirements}
    (hreq : reader.requirements = some requirements) (hscope : scope ∈ requirements.scopes) :
    reader.ensureScopeAllowed b scope = .ok () := by
  unfold ensureScopeAllowed
  rw [hreq]
  exact if_pos hscope

/-- a read of a scope that the rule declared does not raise -/
theorem events_ok {requirements : ContextRequirements}
    (hreq : reader.requirements = some requirements) (hscope : scope ∈ requirements.scopes) :
    ∃ rows, reader.events b num scope eventType eventTypes since limit windowSeconds
      = .ok rows := by
  unfold events
  rw [ensure_ok hreq hscope]
  rcases reader.history with _ | rows
  · exact ⟨_, rfl⟩
  · show ∃ r, (if reader.keysOf scope = [] then _ else _ : Except Exc _) = .ok r
    split
    · exact ⟨_, rfl⟩
    · split
      · exact ⟨_, rfl⟩
      · exact ⟨_, rfl⟩

theorem length_events {rows : List (Dict Str Json)}
    (h : reader.events b num scope eventType eventTypes since limit windowSeconds = .ok rows) :
    rows.length ≤ (reader.boundedLimit limit).toNat := by
  unfold events at h
  rcases hallowed : reader.ensureScopeAllowed b scope with error | u
  · rw [hallowed] at h
    cases h
  · rw [hallowed] at h
    rcases hr : reader.history with _ | events
    · rw [hr] at h
      cases h
      exact Nat.zero_le _
    · rw [hr] at h
      change (if reader.keysOf scope = [] then _ else _ : Except Exc _) = _ at h
      split at h
      · cases h
        exact Nat.zero_le _
      · split at h
        · cases h
          exact Nat.zero_le _
        · cases h
          exact List.length_take_le _ _

/-- a scope without a key has no events -/
theorem events_nil {requirements : ContextRequirements}
    (hreq : reader.requirements = some requirements) (hscope : scope ∈ requirements.scopes)
    (hkeys : reader.keysOf scope = []) :
    reader.events b num scope eventType eventTypes since limit windowSeconds = .ok [] := by
  unfold events
  rw [ensure_ok hreq hscope]
  rcases reader.history with _ | rows
  · rfl
  · exact if_pos hkeys

/-- the events of a single key are those that a query of the key returns -/
theorem events_one {requirements : ContextRequirements}
    (hreq : reader.requirements = some requirements) (hscope : scope ∈ requirements.scopes)
    {history : MemoryHistory} (hrows : reader.history = some history) {k : Str}
    (hkeys : reader.keysOf scope = [k])
    (hsorted : ((history.get k).getD []).Pairwise fun x y => Newer id num y x) :
    reader.events b num scope eventType eventTypes since limit windowSeconds
      = .ok (queryRows id b num ((history.get k).getD [])
          (reader.boundedEventTypes eventType eventTypes)
          (reader.boundedSince since windowSeconds) (reader.boundedLimit limit).toNat) := by
  unfold events
  rw [ensure_ok hreq hscope, hrows]
  show (if reader.keysOf scope = [] then _ else _ : Except Exc _) = _
  rw [hkeys, if_neg (List.cons_ne_nil k [])]
  by_cases hl : reader.boundedLimit limit ≤ 0
  · rw [if_pos hl, Int.toNat_of_nonpos hl]
    rfl
  · rw [if_neg hl]
    have hnewest : (queryRows id b num ((history.get k).getD [])
        (reader.boundedEventTypes eventType eventTypes)
        (reader.boundedSince since windowSeconds) (reader.boundedLimit limit).toNat).Pairwise
        (Newer id num) := by
      unfold queryRows
      refine List.Pairwise.sublist (List.take_sublist _ _) ?_
      rw [List.pairwise_reverse]
      exact hsorted.sublist List.filter_sublist
    refine congrArg Except.ok ?_
    rw [List.flatMap_singleton]
    refine Eq.trans (congrArg (List.take _) (List.Pairwise.insertionSort_eq hnewest)) ?_
    exact List.take_of_length_le (List.length_take_le _ _)

/-- **the reader returns the rows of what it finds** -/
theorem events_eq {requirements : ContextRequirements}
    (hreq : reader.requirements = some requirements) (hscope : scope ∈ requirements.scopes)
    (hrows : reader.history = some (store.after run)) :
    reader.events b num scope eventType eventTypes since limit windowSeconds
      = .ok ((reader.found store run b num scope eventType eventTypes since limit
          windowSeconds).map Appended.row) := by
  have hquery : (fun k => (stored store run k).map Appended.row)
      = fun k => ((store.after run).get k).getD [] := funext fun k => map_stored
  unfold events found
  rw [ensure_ok hreq hscope, hrows, map_readRows, hquery]
  show (if reader.keysOf scope = [] then _ else _ : Except Exc _) = _
  by_cases hk : reader.keysOf scope = []
  · rw [if_pos hk, hk]
    unfold readRows
    rw [List.flatMap_nil, List.insertionSort_nil, List.take_nil]
    rfl
  · rw [if_neg hk]
    by_cases hl : reader.boundedLimit limit ≤ 0
    · rw [if_pos hl, Int.toNat_of_nonpos hl]
      rfl
    · rw [if_neg hl]
      rfl

theorem found_eq (hrun : run.Pairwise fun a a' => num a.recordedAt ≤ num a'.recordedAt) :
    reader.found store run b num scope eventType eventTypes since limit windowSeconds
      = ((reader.copies store run b num scope eventType eventTypes since windowSeconds
        ).insertionSort (Newer Appended.row num)).take (reader.boundedLimit limit).toNat := by
  refine readRows_eq _ fun k _ => (stored_pairwise hrun).imp fun {x y} h => ?_
  unfold Newer
  rw [recordedOf_row, recordedOf_row]
  exact h

/-- the bounds of the reader are those that the rule declared and asked for -/
theorem admitted_iff {requirements : ContextRequirements}
    (hreq : reader.requirements = some requirements) {e : Appended} :
    admitted Appended.row b num (reader.boundedEventTypes eventType eventTypes)
      (reader.boundedSince since windowSeconds) e = true ↔
    Relevant b num requirements reader.now eventType eventTypes since windowSeconds e.2 := by
  have htypes : typeAllowed b (reader.boundedEventTypes eventType eventTypes)
      (e.row.get (str "event_type")) = true ↔
      (∀ types ∈ requirements.eventTypes,
        typeText b (e.row.get (str "event_type")) ∈ types) ∧
      (eventTypes.getD [] ++ eventType.toList ≠ [] →
        typeText b (e.row.get (str "event_type")) ∈ eventTypes.getD [] ++ eventType.toList) := by
    unfold boundedEventTypes
    rw [hreq, Option.bind_some]
    dsimp only
    rcases requirements.eventTypes with _ | required
    · by_cases hr : eventTypes.getD [] ++ eventType.toList = []
      · rw [if_pos hr]
        exact iff_of_true rfl ⟨fun _ h => absurd h (Option.not_mem_none _), fun h => absurd hr h⟩
      · dsimp only
        rw [if_neg hr]
        unfold typeAllowed
        rw [decide_eq_true_eq]
        exact ⟨fun h => ⟨fun _ h => absurd h (Option.not_mem_none _), fun _ => h⟩, fun h => h.2 hr⟩
    · dsimp only
      by_cases hr : eventTypes.getD [] ++ eventType.toList = []
      · rw [if_pos hr]
        unfold typeAllowed
        rw [decide_eq_true_eq]
        exact ⟨fun h => ⟨fun types ht => Option.mem_some_iff.mp ht ▸ h, fun h => absurd hr h⟩,
          fun h => h.1 required rfl⟩
      · rw [if_neg hr]
        unfold typeAllowed
        rw [decide_eq_true_eq, List.mem_filter, decide_eq_true_eq]
        exact ⟨fun h => ⟨fun types ht => Option.mem_some_iff.mp ht ▸ h.1, fun _ => h.2⟩,
          fun h => ⟨h.1 required rfl, h.2 hr⟩⟩
  have hsince : reader.boundedSince since windowSeconds < e.time num ↔
      (∀ t ∈ since, t < e.time num) ∧ reader.now - (min requirements.windowSeconds
        (windowSeconds.getD requirements.windowSeconds) : Int) < e.time num := by
    unfold boundedSince
    rw [hreq, Option.map_some, Option.getD_some]
    rcases since with _ | t
    · exact (and_iff_right fun t ht => absurd ht (Option.not_mem_none t)).symm
    · show max t _ < _ ↔ _
      rw [max_lt_iff]
      exact and_congr_left' ⟨fun h t' ht' => Option.mem_some_iff.mp ht' ▸ h, fun h => h t rfl⟩
  unfold admitted
  rw [Bool.and_eq_true, decide_eq_true_eq, recordedOf_row, hsince, htypes]
  exact ⟨fun h => ⟨h.2.1, h.2.2, h.1.1, h.1.2⟩,
    fun h => ⟨⟨h.since, h.window⟩, h.required, h.requested⟩⟩

end

end ScopedHistoryReader

/-! ## the newest of them -/

theorem newer_iff {num : FloatLit → ℚ} {x y : Appended} :
    Newer Appended.row num x y ↔ y.time num ≤ x.time num := by
  unfold Newer
  rw [recordedOf_row, recordedOf_row]

/-- the place of an append tells it -/
theorem stamped_eq {run : List Append} {x y : Appended} (hx : x ∈ stamped run)
    (hy : y ∈ stamped run) (h : x.1 = y.1) : x = y := by
  obtain ⟨⟨a, i⟩, ha, rfl⟩ := List.mem_map.mp hx
  obtain ⟨⟨a', j⟩, ha', rfl⟩ := List.mem_map.mp hy
  obtain rfl : i = j := h
  have hget := List.mem_zipIdx_iff_getElem?.mp ha
  rw [List.mem_zipIdx_iff_getElem?.mp ha'] at hget
  have haa : a' = a := Option.some.inj hget
  rw [haa]

theorem mem_stamped {store : MemoryEventHistoryStore} {run : List Append} {k : Str} {e : Appended}
    (h : e ∈ stored store run k) : e ∈ stamped run := by
  obtain ⟨x, hx, hm⟩ := List.mem_flatMap.mp ((List.rtake_suffix _ _).subset h)
  obtain ⟨-, -, rfl⟩ := List.mem_map.mp hm
  exact hx

/-- second copies of an event come too late to be among the newest `n` rows: as many are newer, or
as old and read before -/
def LateCopies (num : FloatLit → ℚ) (n : Nat) (copies : List Appended) : Prop :=
  ∀ u y v, copies = u ++ y :: v → y.1 ∈ u.map Prod.fst →
    n ≤ copies.countP (fun x => decide (y.time num < x.time num)) +
      u.countP fun x => decide (x.time num = y.time num)

instance (num : FloatLit → ℚ) (n : Nat) (copies : List Appended) :
    Decidable (LateCopies num n copies) :=
  decidable_of_iff' _ (@forall_split Appended (fun u y => y.1 ∈ u.map Prod.fst →
    n ≤ copies.countP (fun x => decide (y.time num < x.time num)) +
      u.countP fun x => decide (x.time num = y.time num)) copies)

/-- only the first copies of an event are among the newest rows when its others come too late -/
theorem nodup_take_iff {num : FloatLit → ℚ} {copies : List Appended} (n : Nat)
    (h : ∀ x ∈ copies, ∀ y ∈ copies, x.1 = y.1 → x = y) :
    (((copies.insertionSort (Newer Appended.row num)).take n).map Prod.fst).Nodup ↔
      LateCopies num n copies := by
  rw [List.nodup_take_insertionSort_iff (r := Newer Appended.row num) Prod.fst n
    (fun x hx y hy hxy => newer_iff.mpr (congrArg _ (h x hx y hy hxy)).ge)]
  have hnewer : ∀ y, copies.countP (fun x => decide ¬ Newer Appended.row num y x)
      = copies.countP fun x => decide (y.time num < x.time num) := fun y =>
    List.countP_congr fun x _ => by
      rw [decide_eq_true_eq, decide_eq_true_eq, newer_iff, not_le]
  have hold : ∀ u y, List.countP (fun x => decide (Newer Appended.row num x y ∧
      Newer Appended.row num y x)) u = u.countP fun x => decide (x.time num = y.time num) :=
    fun u y => List.countP_congr fun x _ => by
      rw [decide_eq_true_eq, decide_eq_true_eq, newer_iff, newer_iff, eq_comm, le_antisymm_iff]
  unfold LateCopies
  simp only [hnewer, hold]

namespace ScopedHistoryReader

section
variable {reader : ScopedHistoryReader} {store : MemoryEventHistoryStore} {run : List Append}
  {b : Builtins} {num : FloatLit → ℚ} {scope : Str} {eventType : Option Str}
  {eventTypes : Option (List Str)} {since : Option ℚ} {limit windowSeconds : Option Int}
  {requirements : ContextRequirements}

theorem mem_copies (hreq : reader.requirements = some requirements) {e : Appended} :
    e ∈ reader.copies store run b num scope eventType eventTypes since windowSeconds ↔
      reader.Readable store run b num scope eventType eventTypes since windowSeconds
        requirements e := by
  unfold copies Readable
  rw [List.mem_flatMap, ← exists_and_right]
  refine exists_congr fun k => ?_
  rw [List.mem_reverse, List.mem_filter, admitted_iff hreq, and_assoc]

/-- what the reader finds are the newest events when it finds none twice -/
theorem newestOf_found (hreq : reader.requirements = some requirements)
    (hrun : run.Pairwise fun a a' => num a.recordedAt ≤ num a'.recordedAt)
    (hd : ((reader.found store run b num scope eventType eventTypes since limit
      windowSeconds).map Prod.fst).Nodup) :
    NewestOf num (reader.Readable store run b num scope eventType eventTypes since windowSeconds
      requirements) (reader.boundedLimit limit).toNat
      (reader.found store run b num scope eventType eventTypes since limit windowSeconds) := by
  have hsorted := List.pairwise_insertionSort (Newer Appended.row num)
    (reader.copies store run b num scope eventType eventTypes since windowSeconds)
  have hmem : ∀ e, e ∈ (reader.copies store run b num scope eventType eventTypes since
      windowSeconds).insertionSort (Newer Appended.row num) ↔ _ := fun e =>
    (List.mem_insertionSort _).trans (mem_copies hreq)
  rw [found_eq hrun] at hd ⊢
  generalize (reader.boundedLimit limit).toNat = n at hd ⊢
  generalize (reader.copies store run b num scope eventType eventTypes since
    windowSeconds).insertionSort (Newer Appended.row num) = sorted at hsorted hmem hd ⊢
  constructor
  case among => exact fun e he => (hmem e).mp (List.mem_of_mem_take he)
  case ordered =>
    exact (hsorted.sublist (List.take_sublist _ _)).imp fun {x y} h => newer_iff.mp h
  case length => exact List.length_take_le _ _
  case distinct => exact hd
  case complete =>
    intro e he hne
    have hin : e ∈ sorted.take n ++ sorted.drop n := by
      rw [List.take_append_drop]
      exact (hmem e).mpr he
    have hdrop : e ∈ sorted.drop n := (List.mem_append.mp hin).resolve_left fun h =>
      hne (List.mem_map_of_mem h)
    rw [← List.take_append_drop n sorted, List.pairwise_append] at hsorted
    refine ⟨List.length_take_of_le ?_, fun x hx => newer_iff.mp (hsorted.2.2 x hx e hdrop)⟩
    have := List.length_pos_of_mem hdrop
    rw [List.length_drop] at this
    omega

end

/-- **the newest events of a scope**: a read returns the rows of what it finds and `count` counts
them, and these are the newest events that the rule may read, each once, exactly when second copies
of an event come too late -/
theorem newest_events (reader : ScopedHistoryReader) (store : MemoryEventHistoryStore)
    (run : List Append) (b : Builtins) (num : FloatLit → ℚ)
    (hrun : run.Pairwise fun a a' => num a.recordedAt ≤ num a'.recordedAt)
    (hrows : reader.history = some (store.after run)) (requirements : ContextRequirements)
    (hreq : reader.requirements = some requirements) (scope : Str)
    (hscope : scope ∈ requirements.scopes) (eventType : Option Str)
    (eventTypes : Option (List Str)) (since : Option ℚ) (limit windowSeconds : Option Int) :
    reader.events b num scope eventType eventTypes since limit windowSeconds
      = .ok ((reader.found store run b num scope eventType eventTypes since limit
          windowSeconds).map Appended.row) ∧
    reader.count b num scope eventType eventTypes windowSeconds
      = .ok (reader.found store run b num scope eventType eventTypes none none
          windowSeconds).length ∧
    (NewestOf num (reader.Readable store run b num scope eventType eventTypes since windowSeconds
        requirements)
        (min requirements.maxEvents (limit.getD requirements.maxEvents)).toNat
        (reader.found store run b num scope eventType eventTypes since limit windowSeconds) ↔
      LateCopies num (min requirements.maxEvents (limit.getD requirements.maxEvents)).toNat
        (reader.copies store run b num scope eventType eventTypes since windowSeconds)) := by
  refine ⟨events_eq hreq hscope hrows, ?_, ?_⟩
  · unfold count
    rw [events_eq hreq hscope hrows]
    exact congrArg Except.ok (List.length_map _)
  have hlimit : reader.boundedLimit limit
      = min requirements.maxEvents (limit.getD requirements.maxEvents) := by
    unfold boundedLimit
    rw [hreq]
    rfl
  have htells : ∀ x ∈ reader.copies store run b num scope eventType eventTypes since windowSeconds,
      ∀ y ∈ reader.copies store run b num scope eventType eventTypes since windowSeconds,
      x.1 = y.1 → x = y := by
    intro x hx y hy h
    obtain ⟨⟨k, -, hxk⟩, -⟩ := (mem_copies hreq).mp hx
    obtain ⟨⟨k', -, hyk⟩, -⟩ := (mem_copies hreq).mp hy
    exact stamped_eq (mem_stamped hxk) (mem_stamped hyk) h
  rw [← nodup_take_iff _ htells, ← hlimit, ← found_eq hrun]
  exact ⟨fun h => h.distinct, newestOf_found hreq hrun⟩

/-! ## an event under two keys of a scope -/

def objectKey (key : Str) (h : strip key = key := by decide) (hne : key ≠ [] := by decide) :
    ScopeKey :=
  ⟨str "object", key, by decide, h, by decide, hne⟩

/-- the reader of an event with the objects `a` and `b` -/
def objectReader (run : List Append) : ScopedHistoryReader where
  history := some (MemoryEventHistoryStore.sample.after run)
  scopeKeys := [objectKey (str "a"), objectKey (str "b")]
  requirements := some { scopes := [str "object"] }
  now := 2

/-- an old login of the object `a`, a login of both, a logout, and a login of each -/
def logins : List Append :=
  [visitAt "login" [objectKey (str "a")] ⟨str "10.0", Eq.refl true⟩ uuidA 10,
    visitAt "login" [objectKey (str "a"), objectKey (str "b")] ⟨str "90.0", Eq.refl true⟩ uuidB 90,
    visitAt "logout" [objectKey (str "a")] ⟨str "100.0", Eq.refl true⟩ uuidC 100,
    visitAt "login" [objectKey (str "b")] ⟨str "110.0", Eq.refl true⟩ uuidD 110,
    visitAt "login" [objectKey (str "a")] ⟨str "150.0", Eq.refl true⟩ uuidE 150]

/-- the last two logins of two minutes -/
def latestLogins : ContextRequirements where
  scopes := [str "object"]
  eventTypes := some [str "login"]
  windowSeconds := 120
  maxEvents := 2

def loginReader : ScopedHistoryReader where
  history := some (MemoryEventHistoryStore.sample.after logins)
  scopeKeys := [objectKey (str "a"), objectKey (str "b")]
  requirements := some latestLogins
  now := 200

/-- four copies may be read, two of them of one event, and both of these come too late -/
theorem newest_events_logins :
    (loginReader.copies .sample logins .sample wholeSeconds (str "object") none none none none).map
        Prod.fst = [4, 1, 3, 1] ∧
    ∃ found, found.map Prod.fst = [4, 3] ∧
      loginReader.events .sample wholeSeconds (str "object") none none none none none
        = .ok (found.map Appended.row) ∧
      NewestOf wholeSeconds (loginReader.Readable .sample logins .sample wholeSeconds (str "object")
        none none none none latestLogins) 2 found := by
  obtain ⟨hevents, -, hnewest⟩ := newest_events loginReader .sample logins .sample wholeSeconds
    (by decide +kernel) rfl latestLogins rfl (str "object") List.mem_cons_self none none none none
    none
  exact ⟨by decide +kernel, _, by decide +kernel, hevents, hnewest.mpr (by decide +kernel)⟩

/-- an event of both objects is returned twice -/
theorem events_twice : ¬ ∀ (reader : ScopedHistoryReader) (store : MemoryEventHistoryStore)
    (run : List Append) (b : Builtins) (num : FloatLit → ℚ),
    run.Pairwise (fun a a' => num a.recordedAt ≤ num a'.recordedAt) →
    reader.history = some (store.after run) →
    ∀ (requirements : ContextRequirements), reader.requirements = some requirements →
    ∀ (scope : Str), scope ∈ requirements.scopes →
    ∀ (eventType : Option Str) (eventTypes : Option (List Str)) (since : Option ℚ)
      (limit windowSeconds : Option Int),
    ∃ found, NewestOf num (reader.Readable store run b num scope eventType eventTypes since
        windowSeconds requirements)
        (min requirements.maxEvents (limit.getD requirements.maxEvents)).toNat found ∧
      reader.events b num scope eventType eventTypes since limit windowSeconds
        = .ok (found.map Appended.row) := by
  intro h
  obtain ⟨found, hfound, hevents⟩ := h
    (objectReader [recorded .null [objectKey (str "a"), objectKey (str "b")]]) .sample
    [recorded .null [objectKey (str "a"), objectKey (str "b")]] .sample wholeSeconds
    (List.pairwise_singleton _ _) rfl { scopes := [str "object"] } rfl (str "object")
    List.mem_cons_self none none none none none
  -- only one event was appended
  have hsub : found.map Prod.fst ⊆ [0] := by
    intro i hi
    obtain ⟨e, he, rfl⟩ := List.mem_map.mp hi
    obtain ⟨⟨k, -, hk⟩, -⟩ := hfound.among e he
    obtain rfl := List.mem_singleton.mp (mem_stamped hk)
    exact List.mem_cons_self
  have hone : found.length ≤ 1 := by
    have := (hfound.distinct.subperm hsub).length_le
    rwa [List.length_map] at this
  have htwo : ((objectReader [recorded .null [objectKey (str "a"), objectKey (str "b")]]).events
      .sample wholeSeconds (str "object") none none none none none).map List.length = .ok 2 := by
    decide +kernel
  rw [hevents] at htwo
  injection htwo with hlen
  rw [List.length_map] at hlen
  omega

end ScopedHistoryReader

end SecAudit
