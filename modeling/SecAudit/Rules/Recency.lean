import SecAudit.Data.Lru
import SecAudit.Rules.Counters

/-!
# Which counters the store in memory drops

* `MemoryCall`      the calls of the store: those of a counter store, and `get`;
* `mark`            what a call touches or deletes: `incr` and `set` touch what they write, `get`,
                    `get_int` and `expire` what they find;
* `step_ordered`    a call keeps the store in order of the touches;
* `least_recent_dropped`  so does a run, and what a call has written is there when it returns.
-/

set_option linter.unusedVariables false

namespace SecAudit
open Py

inductive MemoryCall where
  | counter (c : CounterCall)
  | get (key : Str)
deriving DecidableEq

/-- `incr` and `set` -/
def CounterCall.writes : CounterCall → Bool
  | .incr _ _ _ => true
  | .set _ _ _ => true
  | _ => false

namespace MemoryCounterStore

section
variable (store : MemoryCounterStore) (reader : IntReader)

/-- the store after a call -/
def step (now : ℚ) (st : CounterState) : MemoryCall → CounterState
  | .counter c => (store.call reader now st c).2
  | .get k => (store.get now k st).2

/-- the store after a run, each call at its time -/
def after : CounterState → List (ℚ × MemoryCall) → CounterState
  | st, [] => st
  | st, (now, c) :: run => after (store.step reader now st c) run

/-- the item that a read finds -/
def found (now : ℚ) (k : Str) (st : CounterState) : Option (Window Str ℚ) :=
  if isExpired now (store.key k) st then none else st.values.get (store.key k)

/-- what a call touches, with the item it leaves there, or deletes -/
def mark (now : ℚ) (st : CounterState) : MemoryCall → Option (Mark Str (Window Str ℚ))
  | .counter (.incr k amount ttl) =>
    let r := incremented reader now amount ttl ((maybePrune now st).values.get (store.key k))
    match intText r.1 with
    | .error _ => none
    | .ok text => some (.touched (store.key k) ⟨text, r.2⟩)
  | .counter (.getInt k _) => (store.found now k st).map (.touched (store.key k))
  | .counter (.set k value ttl) => match value.str with
    | .error _ => none
    | .ok text => some (.touched (store.key k) ⟨text, endOf now ttl⟩)
  | .counter (.delete k) => some (.deleted (store.key k))
  | .counter (.expire k ttl) => (store.found now k st).map fun item =>
      .touched (store.key k) ⟨item.value, endOf now (some ttl)⟩
  | .get k => (store.found now k st).map (.touched (store.key k))

/-- the marks of a run -/
def marks : CounterState → List (ℚ × MemoryCall) → List (Mark Str (Window Str ℚ))
  | _, [] => []
  | st, (now, c) :: run =>
    (store.mark reader now st c).toList ++ marks (store.step reader now st c) run

end

/-! ## one call -/

section
variable {store : MemoryCounterStore} {reader : IntReader} {now : ℚ} {st : CounterState}
  {l : List (Mark Str (Window Str ℚ))} {k : Str}

/-- the store after the marks `l`, at `now` -/
abbrev Ordered (store : MemoryCounterStore) (now : ℚ) (l : List (Mark Str (Window Str ℚ)))
    (st : CounterState) : Prop :=
  Lru store.maxKeys (Window.LiveAt now) l st.values

theorem maybePrune_ordered (h : store.Ordered now l st) :
    store.Ordered now l (maybePrune now st) := by
  unfold maybePrune
  split
  · exact h.sweep fun _ _ hv => decide_eq_true hv
  · exact h

theorem pop_expired (h : store.Ordered now l st) (he : isExpired now (store.key k) st = true) :
    store.Ordered now l (pop (store.key k) st) := by
  refine h.drop fun item hitem => ?_
  unfold isExpired at he
  rw [hitem] at he
  exact of_decide_eq_true he

/-- what `get` and `expire` do: an item that has ended is dropped, one that is found is touched -/
theorem found_ordered (hmax : 1 ≤ store.maxKeys) (h : store.Ordered now l st)
    (f : Window Str ℚ → Window Str ℚ) :
    store.Ordered now
      (l ++ ((store.found now k st).map fun item => Mark.touched (store.key k) (f item)).toList)
      (if isExpired now (store.key k) st then pop (store.key k) st
        else match st.values.get (store.key k) with
          | none => st
          | some item => { st with values := st.values.setLast (store.key k) (f item) }) := by
  unfold found
  by_cases he : isExpired now (store.key k) st = true
  · rw [if_pos he, if_pos he]
    show Lru _ _ (l ++ []) _
    rw [List.append_nil]
    exact pop_expired h he
  · rw [if_neg he, if_neg he]
    cases hget : st.values.get (store.key k) with
    | none =>
      show Lru _ _ (l ++ []) _
      rw [List.append_nil]
      exact h
    | some item => exact h.touch_stored hmax (f item) (Dict.mem_keys.mpr ⟨item, hget⟩)

theorem get_ordered (hmax : 1 ≤ store.maxKeys) (h : store.Ordered now l st) :
    store.Ordered now
      (l ++ ((store.found now k st).map (Mark.touched (store.key k))).toList)
      (store.get now k st).2 := by
  have hf := @found_ordered store now st l k hmax h id
  unfold get
  by_cases he : isExpired now (store.key k) st = true
  · rw [if_pos he] at hf ⊢
    exact hf
  · rw [if_neg he] at hf ⊢
    revert hf
    cases st.values.get (store.key k) with
    | none => exact fun hf => hf
    | some item => exact fun hf => hf

theorem getInt_state (default : Int) :
    (store.getInt reader now k default st).2 = (store.get now k st).2 := by
  unfold getInt
  dsimp only
  split <;> rfl

theorem write_ordered (hmax : 1 ≤ store.maxKeys) (h : store.Ordered now l st)
    (item : Window Str ℚ) :
    store.Ordered now (l ++ [.touched (store.key k) item])
      (store.write (store.key k) item st) :=
  h.touch hmax (store.key k) item

/-- **a call** keeps the order of the touches -/
theorem step_ordered (hmax : 1 ≤ store.maxKeys) (h : store.Ordered now l st) (c : MemoryCall) :
    store.Ordered now (l ++ (store.mark reader now st c).toList)
      (store.step reader now st c) := by
  have hpruned := maybePrune_ordered h
  cases c with
  | get k => exact get_ordered hmax h
  | counter c =>
    cases c with
    | incr k amount ttl =>
      unfold step call incr mark
      dsimp only
      cases intText (incremented reader now amount ttl
        ((maybePrune now st).values.get (store.key k))).1 with
      | error e =>
        show Lru _ _ (l ++ []) _
        rw [List.append_nil]
        exact hpruned
      | ok text => exact write_ordered hmax hpruned _
    | getInt k default =>
      show store.Ordered now _ (store.getInt reader now k default st).2
      rw [getInt_state]
      exact get_ordered hmax h
    | set k value ttl =>
      unfold step call set mark
      dsimp only
      cases value.str with
      | error e =>
        show Lru _ _ (l ++ []) _
        rw [List.append_nil]
        exact hpruned
      | ok text => exact write_ordered hmax hpruned _
    | delete k => exact h.delete (store.key k)
    | expire k ttl =>
      exact found_ordered hmax h fun item => ⟨item.value, endOf now (some ttl)⟩

/-- what has been written is there -/
theorem written_stored (hmax : 1 ≤ store.maxKeys) {c : CounterCall} (hc : c.writes = true)
    {r : Option Int} (hr : (store.call reader now st c).1 = .ok r) :
    store.key c.key ∈ (store.step reader now st (.counter c)).values.keys := by
  have hget : ∀ (item : Window Str ℚ) (st : CounterState) (k : Str),
      store.key k ∈ (store.write (store.key k) item st).values.keys := fun item st k =>
    Dict.mem_keys.mpr ⟨item, Lru.get_touched hmax (store.key k) item st.values⟩
  cases c with
  | incr k amount ttl =>
    unfold step call incr at *
    dsimp only at hr ⊢
    cases ht : intText (incremented reader now amount ttl
        ((maybePrune now st).values.get (store.key k))).1 with
    | error e =>
      rw [ht] at hr
      cases hr
    | ok text => exact hget _ _ k
  | set k value ttl =>
    unfold step call set at *
    dsimp only at hr ⊢
    cases ht : value.str with
    | error e =>
      rw [ht] at hr
      cases hr
    | ok text => exact hget _ _ k
  | getInt _ _ => cases hc
  | delete _ => cases hc
  | expire _ _ => cases hc

/-! ## a run -/

theorem after_concat (run : List (ℚ × MemoryCall)) (now : ℚ) (c : MemoryCall) : ∀ st,
    store.after reader st (run ++ [(now, c)])
      = store.step reader now (store.after reader st run) c := by
  induction run with
  | nil => exact fun _ => rfl
  | cons e run ih => exact fun st => ih _

theorem marks_concat (run : List (ℚ × MemoryCall)) (now : ℚ) (c : MemoryCall) : ∀ st,
    store.marks reader st (run ++ [(now, c)]) = store.marks reader st run
      ++ (store.mark reader now (store.after reader st run) c).toList := by
  induction run with
  | nil => exact fun _ => List.append_nil _
  | cons e run ih =>
    intro st
    show _ ++ store.marks reader _ (run ++ [(now, c)]) = (_ ++ _) ++ _
    rw [ih, List.append_assoc]
    rfl

/-- **a run** leaves the store in order of the touches, at any time after it -/
theorem run_ordered (hmax : 1 ≤ store.maxKeys) {run : List (ℚ × MemoryCall)} :
    (run.map Prod.fst).Pairwise (· ≤ ·) → ∀ now, (∀ e ∈ run, e.1 ≤ now) →
    store.Ordered now (store.marks reader .empty run) (store.after reader .empty run) := by
  induction run using List.reverseRecOn with
  | nil => exact fun _ now _ => Lru.empty store.maxKeys _
  | append_singleton run e ih =>
    obtain ⟨t, c⟩ := e
    intro hclock now hnow
    rw [List.map_append, List.pairwise_append] at hclock
    have hbefore : ∀ e ∈ run, e.1 ≤ t := fun e he =>
      hclock.2.2 e.1 (List.mem_map_of_mem he) t List.mem_cons_self
    have ht : t ≤ now := hnow (t, c) (List.mem_append_right run List.mem_cons_self)
    rw [after_concat, marks_concat]
    exact (step_ordered hmax (ih hclock.1 t hbefore) c).mono fun item hlive => hlive.earlier ht

end

end MemoryCounterStore

/-- **The store in memory drops the least recently used counters only.** After every call of every
run it holds at most `max_keys` keys, in order of their last touch; what a key held when it was
last touched, if its end has not come and it was not deleted, is there until `max_keys` other keys
were touched since; and what `incr` or `set` has written is there. -/
theorem least_recent_dropped (reader : IntReader) (store : MemoryCounterStore)
    (hmax : 1 ≤ store.maxKeys) (run : List (ℚ × MemoryCall)) (now : ℚ) (c : MemoryCall)
    (hclock : ((run ++ [(now, c)]).map Prod.fst).Pairwise (· ≤ ·)) :
    Lru store.maxKeys (Window.LiveAt now) (store.marks reader .empty (run ++ [(now, c)]))
      (store.after reader .empty (run ++ [(now, c)])).values ∧
    ∀ d r, c = .counter d → d.writes = true →
      (store.call reader now (store.after reader .empty run) d).1 = .ok r →
      store.key d.key ∈ (store.after reader .empty (run ++ [(now, c)])).values.keys := by
  refine ⟨MemoryCounterStore.run_ordered hmax hclock now fun e he => ?_, ?_⟩
  · rcases List.mem_append.mp he with he | he
    · rw [List.map_append, List.pairwise_append] at hclock
      exact hclock.2.2 e.1 (List.mem_map_of_mem he) now List.mem_cons_self
    · rw [List.mem_singleton.mp he]
  · rintro d r rfl hd hr
    rw [MemoryCounterStore.after_concat]
    exact MemoryCounterStore.written_stored hmax hd hr

/-- two keys in a store of two, the older one read before a third comes -/
def touches : List (ℚ × MemoryCall) :=
  [(0, .counter (.incr (str "a") 1 none)), (1, .counter (.incr (str "b") 1 (some 60))),
    (2, .get (str "a"))]

/-- the third key drops `b`, not `a` -/
theorem least_recent_dropped_touches :
    (MemoryCounterStore.after ⟨[], 2⟩ .plain .empty
      (touches ++ [(3, .counter (.incr (str "c") 1 none))])).values.keys
        = [str "a", str "c"] ∧
    str "c" ∈ (MemoryCounterStore.after ⟨[], 2⟩ .plain .empty
      (touches ++ [(3, .counter (.incr (str "c") 1 none))])).values.keys :=
  ⟨by decide +kernel, (least_recent_dropped .plain ⟨[], 2⟩ (by decide) touches 3
    (.counter (.incr (str "c") 1 none)) (by decide +kernel)).2 _ (some 1) rfl rfl
      (by decide +kernel)⟩

end SecAudit
