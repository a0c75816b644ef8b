import Mathlib.Algebra.Order.Ring.Rat
import Mathlib.Data.List.Dedup
import SecAudit.Core.Exc
import SecAudit.Data.Dict
import SecAudit.Data.Windows
import SecAudit.Py.JsonParse

/-!
# Counters in memory

* `MemoryCounterStore`  the store, with its calls `incr`, `getInt`, `set`, `delete`, `expire`;
* `FixedWindows`    the map of counters it stands for: a counter is gone once its window has ended;
* `CountsFresh`     what a call needs for the store to do as the map does: `incr` looks at no
                    counter whose window has ended, and its total can be written;
* `counters_agree`  a run whose calls all meet it answers as the map does.

Times are in seconds; one call reads the clock once.
-/

set_option linter.unusedVariables false

namespace SecAudit
open Py

/-! ## texts and numbers -/

/-- `str(n)` of an `int` -/
def intText (n : Int) : Except Exc Str :=
  if (Json.int n).writable true then .ok (decimalInt n) else .error .conversionError

/-- `int(text)`, unless it raises -/
structure IntReader where
  read : Str → Option Int
  read_text : ∀ n, (Json.int n).writable true = true → read (decimalInt n) = some n

/-- the numerals that `str` writes -/
def IntReader.plain : IntReader where
  read s := if s = decimalInt (ofDecimalInt s) then some (ofDecimalInt s) else none
  read_text n h := by
    rw [ofDecimalInt_decimalInt, if_pos rfl]

/-- what a counter may be set to; a float comes with its text -/
inductive CounterValue where
  | int (n : Int)
  | text (s : Str)
deriving DecidableEq

/-- `str(value)` -/
def CounterValue.str : CounterValue → Except Exc Str
  | .int n => intText n
  | .text s => .ok s

/-! ## the store -/

inductive CounterCall where
  | incr (key : Str) (amount : Int) (ttl : Option Int)
  | getInt (key : Str) (default : Int)
  | set (key : Str) (value : CounterValue) (ttl : Option Int)
  | delete (key : Str)
  | expire (key : Str) (ttl : Int)
deriving DecidableEq

def CounterCall.key : CounterCall → Str
  | .incr key _ _ => key
  | .getInt key _ => key
  | .set key _ _ => key
  | .delete key => key
  | .expire key _ => key

/-- `self.clock() + int(ttl)`, or no end -/
def endOf (now : ℚ) (ttl : Option Int) : Option ℚ := ttl.map fun n => now + n

/-- the values with the ends of their windows, and the writes since the last sweep -/
structure CounterState where
  values : Dict Str (Window Str ℚ)
  writesSincePrune : Nat

def CounterState.empty : CounterState := ⟨.empty, 0⟩

structure MemoryCounterStore where
  keyPrefix : Str
  maxKeys : Nat

namespace MemoryCounterStore

/-- `_prune_interval` -/
def pruneInterval : Nat := 256

section
variable (store : MemoryCounterStore) (reader : IntReader)

/-- `_key` -/
def key (k : Str) : Str :=
  if store.keyPrefix = [] then k else store.keyPrefix ++ (str ":" ++ k)

/-- `_is_expired` -/
def isExpired (now : ℚ) (key : Str) (st : CounterState) : Bool :=
  match st.values.get key with
  | some item => decide (¬ item.LiveAt now)
  | none => false

/-- `_prune` -/
def prune (now : ℚ) (st : CounterState) : CounterState :=
  { st with values := st.values.keep fun _ item => decide (item.LiveAt now) }

/-- `_maybe_prune` -/
def maybePrune (now : ℚ) (st : CounterState) : CounterState :=
  if st.writesSincePrune + 1 ≥ pruneInterval then prune now { st with writesSincePrune := 0 }
  else { st with writesSincePrune := st.writesSincePrune + 1 }

/-- `_evict` -/
def evict (st : CounterState) : CounterState :=
  { st with values := st.values.dropFirst (st.values.size - store.maxKeys) }

/-- the item of `key`, most recently used now, and `_evict` -/
def write (key : Str) (item : Window Str ℚ) (st : CounterState) : CounterState :=
  store.evict { st with values := st.values.setLast key item }

def pop (key : Str) (st : CounterState) : CounterState :=
  { st with values := st.values.pop key }

/-- the value and the end of a counter that is incremented -/
def incremented (now : ℚ) (amount : Int) (ttl : Option Int) (existing : Option (Window Str ℚ)) :
    Int × Option ℚ :=
  match existing with
  | none => (amount, endOf now ttl)
  | some item => match reader.read item.value with
    | some current => (current + amount, item.expiresAt)
    | none => (amount, item.expiresAt)

def incr (now : ℚ) (k : Str) (amount : Int) (ttl : Option Int) (st : CounterState) :
    Except Exc Int × CounterState :=
  let st := maybePrune now st
  let r := incremented reader now amount ttl (st.values.get (store.key k))
  match intText r.1 with
  | .error e => (.error e, st)
  | .ok text => (.ok r.1, store.write (store.key k) ⟨text, r.2⟩ st)

def get (now : ℚ) (k : Str) (st : CounterState) : Option Str × CounterState :=
  if isExpired now (store.key k) st then (none, pop (store.key k) st)
  else match st.values.get (store.key k) with
    | none => (none, st)
    | some item => (some item.value,
        { st with values := st.values.setLast (store.key k) item })

def getInt (now : ℚ) (k : Str) (default : Int) (st : CounterState) : Int × CounterState :=
  let r := store.get now k st
  match r.1 with
  | none => (default, r.2)
  | some value => ((reader.read value).getD default, r.2)

def set (now : ℚ) (k : Str) (value : CounterValue) (ttl : Option Int) (st : CounterState) :
    Except Exc Unit × CounterState :=
  let st := maybePrune now st
  match value.str with
  | .error e => (.error e, st)
  | .ok text => (.ok (), store.write (store.key k) ⟨text, endOf now ttl⟩ st)

def delete (k : Str) (st : CounterState) : CounterState := pop (store.key k) st

def expire (now : ℚ) (k : Str) (ttl : Int) (st : CounterState) : CounterState :=
  if isExpired now (store.key k) st then pop (store.key k) st
  else match st.values.get (store.key k) with
    | none => st
    | some item =>
      { st with values := st.values.setLast (store.key k) ⟨item.value, endOf now (some ttl)⟩ }

/-- a call, with what it returns -/
def call (now : ℚ) (st : CounterState) : CounterCall → Except Exc (Option Int) × CounterState
  | .incr k amount ttl =>
    let r := store.incr reader now k amount ttl st
    (r.1.map some, r.2)
  | .getInt k default =>
    let r := store.getInt reader now k default st
    (.ok (some r.1), r.2)
  | .set k value ttl =>
    let r := store.set now k value ttl st
    (r.1.map fun _ => none, r.2)
  | .delete k => (.ok none, store.delete k st)
  | .expire k ttl => (.ok none, store.expire now k ttl st)

/-- what the calls of a run return, each at its time -/
def results : CounterState → List (ℚ × CounterCall) → List (Except Exc (Option Int))
  | _, [] => []
  | st, (now, c) :: run =>
    (store.call reader now st c).1 :: results (store.call reader now st c).2 run

end

end MemoryCounterStore

/-! ## the map it stands for -/

/-- counters by key: the number, if it is one, with the end of its window -/
abbrev FixedWindows := Windows Str (Option Int) ℚ

namespace FixedWindows

section
variable (reader : IntReader)

/-- the number a counter is set to -/
def valueOf : CounterValue → Option Int
  | .int n => some n
  | .text s => reader.read s

def incr (now : ℚ) (k : Str) (amount : Int) (ttl : Option Int) (m : FixedWindows) :
    Int × FixedWindows :=
  match Windows.live now m k with
  | none => (amount, Function.update m k (some ⟨some amount, endOf now ttl⟩))
  | some w => (w.value.getD 0 + amount,
      Function.update m k (some ⟨some (w.value.getD 0 + amount), w.expiresAt⟩))

def getInt (now : ℚ) (k : Str) (default : Int) (m : FixedWindows) : Int :=
  ((Windows.live now m k).bind Window.value).getD default

def expire (now : ℚ) (k : Str) (ttl : Int) (m : FixedWindows) : FixedWindows :=
  Function.update m k ((Windows.live now m k).map fun w => ⟨w.value, endOf now (some ttl)⟩)

def call (now : ℚ) (m : FixedWindows) : CounterCall → Option Int × FixedWindows
  | .incr k amount ttl => (some (incr now k amount ttl m).1, (incr now k amount ttl m).2)
  | .getInt k default => (some (getInt now k default m), m)
  | .set k value ttl =>
    (none, Function.update m k (some ⟨valueOf reader value, endOf now ttl⟩))
  | .delete k => (none, Function.update m k none)
  | .expire k ttl => (none, expire now k ttl m)

def results : FixedWindows → List (ℚ × CounterCall) → List (Option Int)
  | _, [] => []
  | m, (now, c) :: run => (call reader now m c).1 :: results (call reader now m c).2 run

end

end FixedWindows

/-! ## what the store shows of the map -/

namespace MemoryCounterStore

section
variable {store : MemoryCounterStore} {reader : IntReader} {now : ℚ} {st : CounterState}
  {m : FixedWindows} {k : Str}

theorem key_injective (store : MemoryCounterStore) : Function.Injective store.key := by
  intro k k' h
  unfold key at h
  split at h
  · exact h
  · exact List.append_cancel_left (List.append_cancel_left h)

/-- the counters as they stand in the store, ended ones included -/
def view (store : MemoryCounterStore) (reader : IntReader) (st : CounterState) : FixedWindows :=
  Windows.comap store.key reader.read fun k => st.values.get k

/-- the store holds counters of `keys` only -/
def Holds (store : MemoryCounterStore) (keys : List Str) (st : CounterState) : Prop :=
  st.values.keys ⊆ keys.map store.key

theorem view_pop (st : CounterState) (k : Str) :
    store.view reader (pop (store.key k) st) = Function.update (store.view reader st) k none := by
  show Windows.comap store.key reader.read (fun k' => (st.values.pop _).get k') = _
  rw [Dict.fun_pop, Windows.comap_update (key_injective store)]
  rfl

theorem view_setLast (st : CounterState) (k : Str) (item : Window Str ℚ) :
    store.view reader { st with values := st.values.setLast (store.key k) item }
      = Function.update (store.view reader st) k (some (item.map reader.read)) := by
  show Windows.comap store.key reader.read (fun k' => (st.values.setLast _ _).get k') = _
  rw [Dict.fun_setLast, Windows.comap_update (key_injective store)]
  rfl

/-- an item that is written again changes nothing -/
theorem view_touch {item : Window Str ℚ} (h : st.values.get (store.key k) = some item) :
    store.view reader { st with values := st.values.setLast (store.key k) item }
      = store.view reader st := by
  rw [view_setLast]
  have he : store.view reader st k = some (item.map reader.read) :=
    congrArg (Option.map (Window.map reader.read)) h
  rw [← he, Function.update_eq_self]

theorem live_view : Windows.live now (store.view reader st) k
    = ((st.values.get (store.key k)).filter fun item => decide (item.LiveAt now)).map
      (Window.map reader.read) :=
  Windows.live_comap now store.key reader.read _ k

theorem view_prune (now : ℚ) (st : CounterState) :
    store.view reader (prune now st) = Windows.live now (store.view reader st) := by
  funext k
  rw [live_view]
  show ((st.values.keep _).get (store.key k)).map _ = _
  rw [Dict.get_keep]

theorem view_maybePrune (now : ℚ) (st : CounterState) :
    Windows.Alike now (store.view reader (maybePrune now st)) (store.view reader st) := by
  unfold maybePrune
  split
  · rw [view_prune]
    exact .sweep now _
  · exact .refl now _

theorem Holds.keep {keys : List Str} (h : store.Holds keys st) (p : Str → Window Str ℚ → Bool)
    (n : Nat) : store.Holds keys ⟨st.values.keep p, n⟩ :=
  List.Subset.trans (Dict.keys_keep p st.values) h

theorem Holds.maybePrune {keys : List Str} (h : store.Holds keys st) (now : ℚ) :
    store.Holds keys (maybePrune now st) := by
  unfold MemoryCounterStore.maybePrune
  split
  · exact h.keep _ 0
  · exact h

theorem Holds.setLast {keys : List Str} (h : store.Holds keys st) (hk : k ∈ keys)
    (item : Window Str ℚ) (n : Nat) :
    store.Holds keys ⟨st.values.setLast (store.key k) item, n⟩ :=
  List.Subset.trans (Dict.keys_setLast _ item st.values)
    (List.cons_subset.mpr ⟨List.mem_map_of_mem hk, h⟩)

/-- with few enough keys nothing is evicted -/
theorem evict_eq {keys : List Str} (h : store.Holds keys st) (hn : keys.length ≤ store.maxKeys) :
    store.evict st = st := by
  have hs : st.values.size ≤ store.maxKeys := by
    refine (Dict.size_le h).trans ?_
    rwa [List.length_map]
  unfold evict
  rw [Nat.sub_eq_zero_of_le hs, Dict.dropFirst_zero]

theorem view_write {keys : List Str} (h : store.Holds keys st) (hn : keys.length ≤ store.maxKeys)
    (hk : k ∈ keys) (item : Window Str ℚ) :
    store.view reader (store.write (store.key k) item st)
        = Function.update (store.view reader st) k (some (item.map reader.read)) ∧
      store.Holds keys (store.write (store.key k) item st) := by
  unfold write
  rw [evict_eq (h.setLast hk item _) hn]
  exact ⟨view_setLast st k item, h.setLast hk item _⟩

/-! ## the calls -/

/-- the number of a counter before it is incremented -/
def countOf (m : FixedWindows) (now : ℚ) (k : Str) : Int :=
  ((Windows.live now m k).bind Window.value).getD 0

/-- `incr` looks at no counter whose window has ended, unless it sweeps them away first; and the
number that is stored can be written -/
def CountsFresh (store : MemoryCounterStore) (reader : IntReader) (now : ℚ) (st : CounterState) :
    CounterCall → Prop
  | .incr k amount _ =>
    (st.writesSincePrune + 1 < pruneInterval →
      ∀ item ∈ st.values.get (store.key k), item.LiveAt now) ∧
    (Json.int (countOf (store.view reader st) now k + amount)).writable true = true
  | .set _ (.int n) _ => (Json.int n).writable true = true
  | _ => True

/-- all calls of a run are so -/
def RunsFresh (store : MemoryCounterStore) (reader : IntReader) :
    CounterState → List (ℚ × CounterCall) → Prop
  | _, [] => True
  | st, (now, c) :: run =>
    store.CountsFresh reader now st c ∧ store.RunsFresh reader (store.call reader now st c).2 run

instance (store : MemoryCounterStore) (reader : IntReader) (now : ℚ) (st : CounterState) :
    (c : CounterCall) → Decidable (store.CountsFresh reader now st c)
  | .incr _ _ _ => inferInstanceAs (Decidable (_ ∧ _))
  | .set _ (.int n) _ => inferInstanceAs (Decidable ((Json.int n).writable true = true))
  | .set _ (.text _) _ => .isTrue trivial
  | .getInt _ _ => .isTrue trivial
  | .delete _ => .isTrue trivial
  | .expire _ _ => .isTrue trivial

instance decidableRunsFresh (store : MemoryCounterStore) (reader : IntReader) :
    (st : CounterState) → (run : List (ℚ × CounterCall)) → Decidable (store.RunsFresh reader st run)
  | _, [] => .isTrue trivial
  | st, (now, c) :: run =>
    have := decidableRunsFresh store reader (store.call reader now st c).2 run
    inferInstanceAs (Decidable (_ ∧ _))

theorem intText_ok {n : Int} (h : (Json.int n).writable true = true) :
    intText n = .ok (decimalInt n) := if_pos h

theorem incremented_spec {amount : Int} {ttl : Option Int} {existing : Option (Window Str ℚ)}
    (h : Windows.live now m k = existing.map (Window.map reader.read)) :
    FixedWindows.incr now k amount ttl m
        = ((incremented reader now amount ttl existing).1, Function.update m k
          (some ⟨some (incremented reader now amount ttl existing).1,
            (incremented reader now amount ttl existing).2⟩)) ∧
      (incremented reader now amount ttl existing).1 = countOf m now k + amount := by
  unfold FixedWindows.incr incremented countOf
  rw [h]
  cases existing with
  | none => exact ⟨rfl, (Int.zero_add amount).symm⟩
  | some item =>
    simp only [Option.map_some, Window.map, Option.bind_some]
    cases reader.read item.value with
    | none =>
      rw [Option.getD_none, Int.zero_add]
      exact ⟨rfl, rfl⟩
    | some current => exact ⟨rfl, rfl⟩

variable {keys : List Str} (h : Windows.Alike now (store.view reader st) m)
  (hst : store.Holds keys st) (hn : keys.length ≤ store.maxKeys)
include h hst hn

theorem incr_agrees {amount : Int} {ttl : Option Int} (hk : k ∈ keys)
    (hf : store.CountsFresh reader now st (.incr k amount ttl)) :
    (store.incr reader now k amount ttl st).1 = .ok (FixedWindows.incr now k amount ttl m).1 ∧
      Windows.Alike now (store.view reader (store.incr reader now k amount ttl st).2)
        (FixedWindows.incr now k amount ttl m).2 ∧
      store.Holds keys (store.incr reader now k amount ttl st).2 := by
  obtain ⟨hlive, hw⟩ := hf
  -- after the sweep, if there is one, the counter has not ended
  have hlive' : ∀ item ∈ (maybePrune now st).values.get (store.key k), item.LiveAt now := by
    unfold maybePrune
    split
    · intro item hi
      have hi' : (st.values.keep _).get (store.key k) = some item := hi
      rw [Dict.get_keep, Option.filter_eq_some_iff] at hi'
      exact of_decide_eq_true hi'.2
    · rename_i hlt
      exact hlive (Nat.lt_of_not_ge hlt)
  have h1 := (view_maybePrune now st).trans h
  have hst1 := hst.maybePrune now
  unfold incr
  generalize maybePrune now st = st1 at h1 hst1 hlive'
  have hm : Windows.live now m k
      = (st1.values.get (store.key k)).map (Window.map reader.read) := by
    rw [← h1 k, live_view]
    congr 1
    cases hg : st1.values.get (store.key k) with
    | none => rfl
    | some item => exact if_pos (decide_eq_true (hlive' item hg))
  obtain ⟨hi, hc⟩ := @incremented_spec reader now m k amount ttl _ hm
  have hcount : countOf (store.view reader st) now k = countOf m now k := by
    unfold countOf
    rw [h k]
  rw [hcount, ← hc] at hw
  rw [hi]
  simp only
  rw [intText_ok hw]
  obtain ⟨hv, hh⟩ := @view_write store reader st1 k keys hst1 hn hk
    ⟨decimalInt _, (incremented reader now amount ttl (st1.values.get (store.key k))).2⟩
  refine ⟨rfl, ?_, hh⟩
  rw [hv]
  unfold Window.map
  simp only [reader.read_text _ hw]
  exact h1.update k _

theorem set_agrees {value : CounterValue} {ttl : Option Int} (hk : k ∈ keys)
    (hf : store.CountsFresh reader now st (.set k value ttl)) :
    (store.set now k value ttl st).1 = .ok () ∧
      Windows.Alike now (store.view reader (store.set now k value ttl st).2)
        (Function.update m k (some ⟨FixedWindows.valueOf reader value, endOf now ttl⟩)) ∧
      store.Holds keys (store.set now k value ttl st).2 := by
  obtain ⟨text, ht, hr⟩ : ∃ text, value.str = .ok text ∧
      reader.read text = FixedWindows.valueOf reader value := by
    cases value with
    | int n => exact ⟨decimalInt n, intText_ok hf, reader.read_text n hf⟩
    | text s => exact ⟨s, rfl, rfl⟩
  unfold set
  simp only
  rw [ht]
  obtain ⟨hv, hh⟩ := @view_write store reader (maybePrune now st) k keys (hst.maybePrune now) hn
    hk ⟨text, endOf now ttl⟩
  refine ⟨rfl, ?_, hh⟩
  rw [hv]
  unfold Window.map
  simp only [hr]
  exact ((view_maybePrune now st).trans h).update k _

omit h hst hn in
/-- what a key may hold: a counter that has ended, none, or one that has not -/
theorem item_cases (store : MemoryCounterStore) (reader : IntReader) (now : ℚ)
    (st : CounterState) (k : Str) :
    (isExpired now (store.key k) st = true ∧
      Windows.live now (store.view reader st) k = none) ∨
    (isExpired now (store.key k) st = false ∧ st.values.get (store.key k) = none ∧
      Windows.live now (store.view reader st) k = none) ∨
    ∃ item, isExpired now (store.key k) st = false ∧
      st.values.get (store.key k) = some item ∧
      Windows.live now (store.view reader st) k = some (item.map reader.read) := by
  rw [live_view]
  unfold isExpired
  rcases hg : st.values.get (store.key k) with _ | item
  · exact .inr (.inl ⟨rfl, rfl, rfl⟩)
  · by_cases hl : item.LiveAt now
    · refine .inr (.inr ⟨item, decide_eq_false (not_not.mpr hl), rfl, ?_⟩)
      exact congrArg (Option.map (Window.map reader.read)) (if_pos (decide_eq_true hl))
    · refine .inl ⟨decide_eq_true hl, ?_⟩
      exact congrArg (Option.map (Window.map reader.read)) (if_neg (by simpa using hl))

omit h hn in
/-- `get` reads what has not ended, and changes nothing that shows -/
theorem get_spec (hk : k ∈ keys) :
    (store.get now k st).1.map reader.read
        = (Windows.live now (store.view reader st) k).map Window.value ∧
      Windows.Alike now (store.view reader (store.get now k st).2) (store.view reader st) ∧
      store.Holds keys (store.get now k st).2 := by
  unfold get
  rcases item_cases store reader now st k with ⟨he, hl⟩ | ⟨he, hg, hl⟩ | ⟨item, he, hg, hl⟩
  · rw [if_pos he, hl, view_pop]
    exact ⟨rfl, .erase hl, hst.keep _ _⟩
  · rw [if_neg (by rw [he]; exact Bool.false_ne_true), hg, hl]
    exact ⟨rfl, .refl now _, hst⟩
  · rw [if_neg (by rw [he]; exact Bool.false_ne_true), hg, hl]
    refine ⟨rfl, ?_, hst.setLast hk item _⟩
    rw [view_touch hg]
    exact .refl now _

omit hn in
theorem getInt_agrees {default : Int} (hk : k ∈ keys) :
    (store.getInt reader now k default st).1 = FixedWindows.getInt now k default m ∧
      Windows.Alike now (store.view reader (store.getInt reader now k default st).2) m ∧
      store.Holds keys (store.getInt reader now k default st).2 := by
  obtain ⟨hr, hv, hh⟩ := @get_spec store reader now st k keys hst hk
  rw [h k] at hr
  unfold getInt FixedWindows.getInt
  generalize store.get now k st = r at hr hv hh
  obtain ⟨value, st'⟩ := r
  cases value with
  | none =>
    have hl : Windows.live now m k = none := Option.map_eq_none_iff.mp hr.symm
    rw [hl]
    exact ⟨rfl, hv.trans h, hh⟩
  | some text =>
    obtain ⟨w, hl, hw⟩ := Option.map_eq_some_iff.mp hr.symm
    rw [hl]
    refine ⟨?_, hv.trans h, hh⟩
    rw [Option.bind_some, hw]

omit hn in
theorem expire_agrees {ttl : Int} (hk : k ∈ keys) :
    Windows.Alike now (store.view reader (store.expire now k ttl st))
        (FixedWindows.expire now k ttl m) ∧
      store.Holds keys (store.expire now k ttl st) := by
  unfold expire FixedWindows.expire
  rw [← h k]
  rcases item_cases store reader now st k with ⟨he, hl⟩ | ⟨he, hg, hl⟩ | ⟨item, he, hg, hl⟩
  · rw [if_pos he, hl, view_pop]
    exact ⟨h.update k none, hst.keep _ _⟩
  · rw [if_neg (by rw [he]; exact Bool.false_ne_true), hg, hl]
    refine ⟨?_, hst⟩
    exact (Windows.Alike.erase hl).symm.trans (h.update k none)
  · rw [if_neg (by rw [he]; exact Bool.false_ne_true), hg, hl]
    refine ⟨?_, hst.setLast hk _ _⟩
    rw [view_setLast]
    exact h.update k _

/-- **one call**: it answers as the map does, and both go on alike -/
theorem call_agrees {c : CounterCall} (hk : c.key ∈ keys)
    (hf : store.CountsFresh reader now st c) :
    (store.call reader now st c).1 = .ok (FixedWindows.call reader now m c).1 ∧
      Windows.Alike now (store.view reader (store.call reader now st c).2)
        (FixedWindows.call reader now m c).2 ∧
      store.Holds keys (store.call reader now st c).2 := by
  cases c with
  | incr k amount ttl =>
    obtain ⟨hr, hrest⟩ := incr_agrees (k := k) h hst hn hk hf
    refine ⟨?_, hrest⟩
    show (store.incr reader now k amount ttl st).1.map some = _
    rw [hr]
    rfl
  | getInt k default =>
    obtain ⟨hr, hrest⟩ := @getInt_agrees store reader now st m k keys h hst default hk
    refine ⟨?_, hrest⟩
    show Except.ok (some (store.getInt reader now k default st).1) = _
    rw [hr]
    rfl
  | set k value ttl =>
    obtain ⟨hr, hrest⟩ := set_agrees (k := k) h hst hn hk hf
    refine ⟨?_, hrest⟩
    show (store.set now k value ttl st).1.map (fun _ => none) = _
    rw [hr]
    rfl
  | delete k =>
    refine ⟨rfl, ?_, hst.keep _ _⟩
    show Windows.Alike now (store.view reader (pop (store.key k) st)) _
    rw [view_pop]
    exact h.update k none
  | expire k ttl => exact ⟨rfl, expire_agrees h hst hk⟩

end

/-- **a run**: from alike beginnings, the store answers as the map does -/
theorem results_agree {store : MemoryCounterStore} {reader : IntReader} {keys : List Str}
    (hn : keys.length ≤ store.maxKeys) : ∀ {run : List (ℚ × CounterCall)} {now : ℚ}
    {st : CounterState} {m : FixedWindows}, Windows.Alike now (store.view reader st) m →
    store.Holds keys st → (∀ e ∈ run, now ≤ e.1) → (run.map Prod.fst).Pairwise (· ≤ ·) →
    (∀ e ∈ run, e.2.key ∈ keys) → store.RunsFresh reader st run →
    store.results reader st run = (FixedWindows.results reader m run).map .ok
  | [], _, _, _, _, _, _, _, _, _ => rfl
  | (t, c) :: run, now, st, m, h, hst, hle, hclock, hkeys, hf => by
    have ht : now ≤ t := hle _ List.mem_cons_self
    rw [List.map_cons, List.pairwise_cons] at hclock
    obtain ⟨hr, ha, hh⟩ := call_agrees (h.later ht) hst hn (hkeys _ List.mem_cons_self) hf.1
    show _ :: _ = _ :: List.map _ _
    rw [hr, results_agree hn ha hh (fun e he => hclock.1 _ (List.mem_map_of_mem he)) hclock.2
      (fun e he => hkeys e (List.mem_cons_of_mem _ he)) hf.2]

end MemoryCounterStore

/-- **The counters in memory are fixed windows**, in every run in which no `incr` meets a counter
whose window has ended before the sweep has removed it. -/
theorem counters_agree (reader : IntReader) (store : MemoryCounterStore)
    (run : List (ℚ × CounterCall)) (hclock : (run.map Prod.fst).Pairwise (· ≤ ·))
    (hkeys : (run.map fun e => e.2.key).dedup.length ≤ store.maxKeys)
    (hfresh : store.RunsFresh reader .empty run) :
    store.results reader .empty run
      = (FixedWindows.results reader (fun _ => none) run).map .ok := by
  cases run with
  | nil => rfl
  | cons e run =>
    refine MemoryCounterStore.results_agree hkeys (.refl e.1 _) (List.nil_subset _) ?_ hclock
      ?_ hfresh
    · intro e' he'
      rcases List.mem_cons.mp he' with rfl | he'
      · exact le_rfl
      · rw [List.map_cons, List.pairwise_cons] at hclock
        exact hclock.1 _ (List.mem_map_of_mem he')
    · intro e' he'
      exact List.mem_dedup.mpr (List.mem_map.mpr ⟨e', he', rfl⟩)

def MemoryCounterStore.sample : MemoryCounterStore := ⟨str "sec_audit", 10⟩

/-- three hits in a window of a minute, and a read at its end -/
def hits : List (ℚ × CounterCall) :=
  [(0, .incr (str "login") 1 (some 60)), (10, .incr (str "login") 1 (some 60)),
    (59, .incr (str "login") 1 (some 60)), (60, .getInt (str "login") 0)]

theorem counters_agree_hits :
    MemoryCounterStore.sample.results .plain .empty hits
      = [.ok (some 1), .ok (some 2), .ok (some 3), .ok (some 0)] :=
  (counters_agree .plain .sample hits (by decide +kernel) (by decide +kernel)
    (by decide +kernel)).trans (by decide +kernel)

/-- the second hit comes when the window of the first is long over -/
def lateHits : List (ℚ × CounterCall) :=
  [(0, .incr (str "login") 1 (some 60)), (100, .incr (str "login") 1 (some 60))]

/-- the late hit is counted with the first: `2`, where the map starts again with `1` -/
theorem counters_stale :
    (lateHits.map Prod.fst).Pairwise (· ≤ ·) ∧
    (lateHits.map fun e => e.2.key).dedup.length ≤ MemoryCounterStore.sample.maxKeys ∧
    MemoryCounterStore.sample.results .plain .empty lateHits = [.ok (some 1), .ok (some 2)] ∧
    FixedWindows.results .plain (fun _ => none) lateHits = [some 1, some 1] := by
  decide +kernel

end SecAudit
