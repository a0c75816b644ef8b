import Mathlib.Algebra.Order.Group.Defs
import Mathlib.Algebra.Order.Monoid.Unbundled.Basic
import Mathlib.Logic.Function.Basic
import Mathlib.Tactic.Abel

/-!
# Limiting a rate by key

An attempt under a key passes unless one under the same key passed less than a window before. The
times of the attempts need not be in order.

* `Limiter.lets`    whether an attempt passes; `Limiter.after`, the times kept of a run of attempts;
* `Limiter.passed`  the attempts of a run that pass;
* `lets_iff`        an attempt passes exactly when all that passed under its key are a window old;
* `passed_spaced`   those under one key are a window apart;
* `passed_count`    and no more of them than windows in any span of time;
* `passed_apart`    what passes under a key is told by the attempts under it.
-/

set_option linter.unusedVariables false
set_option linter.unusedSectionVars false

namespace Limiter

section
variable {α κ T : Type} [DecidableEq κ] [AddCommGroup T] [LinearOrder T] [IsOrderedAddMonoid T]
  (key : α → κ) (time : α → T) (window : T)

/-- the attempt `x` passes; `last` has the times of the last that passed -/
def lets (last : κ → Option T) (x : α) : Bool :=
  match last (key x) with
  | some previous => !decide (time x - previous < window)
  | none => true

/-- what is kept after an attempt -/
def attempt (last : κ → Option T) (x : α) : κ → Option T :=
  if lets key time window last x then Function.update last (key x) (some (time x)) else last

/-- what is kept after a run of attempts -/
def after (last : κ → Option T) (xs : List α) : κ → Option T := xs.foldl (attempt key time window) last

/-- the attempts of a run that pass -/
def passed : (κ → Option T) → List α → List α
  | _, [] => []
  | last, x :: xs =>
    if lets key time window last x then x :: passed (attempt key time window last x) xs
    else passed (attempt key time window last x) xs

/-- the attempts under a key -/
def under (k : κ) (xs : List α) : List α := xs.filter fun x => decide (key x = k)

variable {key time window} {last last' : κ → Option T} {xs ys : List α} {k : κ} {x : α}

theorem passed_cons (last : κ → Option T) (x : α) (xs : List α) :
    passed key time window last (x :: xs)
      = (if lets key time window last x then [x] else []) ++
        passed key time window (attempt key time window last x) xs := by
  rw [passed]
  split <;> rfl

theorem under_append (k : κ) (xs ys : List α) :
    under key k (xs ++ ys) = under key k xs ++ under key k ys := List.filter_append ..

theorem under_own (h : key x = k) : under key k [x] = [x] :=
  List.filter_cons_of_pos (decide_eq_true h)

theorem under_other (h : key x ≠ k) : under key k [x] = [] :=
  List.filter_cons_of_neg (by simpa using h)

/-! ## what is kept of those that passed -/

/-- under each key the last time that passed is kept, and the times are a window apart -/
structure Spaced (key : α → κ) (time : α → T) (window : T) (last : κ → Option T) (xs : List α) :
    Prop where
  last_eq : ∀ k, last k = (under key k xs).getLast?.map time
  spaced : ∀ k, (under key k xs).Pairwise fun x y => time x + window ≤ time y

theorem Spaced.none : Spaced key time window (fun _ => none) ([] : List α) :=
  ⟨fun _ => rfl, fun _ => List.Pairwise.nil⟩

theorem Spaced.le_last (h : Spaced key time window last xs) (hw : 0 ≤ window) {previous : T}
    (hl : last k = some previous) (hx : x ∈ under key k xs) : time x ≤ previous := by
  rw [h.last_eq] at hl
  obtain ⟨y, hy, rfl⟩ := Option.map_eq_some_iff.mp hl
  obtain ⟨l, hl⟩ := List.getLast?_eq_some_iff.mp hy
  have hs := h.spaced k
  rw [hl] at hx hs
  rcases List.mem_append.mp hx with hx | hx
  · have := (List.pairwise_append.mp hs).2.2 x hx y (List.mem_singleton_self _)
    exact (le_add_of_nonneg_right hw).trans this
  · rw [List.mem_singleton.mp hx]

/-- an attempt passes exactly when all that passed are a window old -/
theorem Spaced.lets_iff (h : Spaced key time window last xs) (hw : 0 ≤ window) :
    lets key time window last x = true ↔
      ∀ y ∈ under key (key x) xs, time y + window ≤ time x := by
  unfold lets
  cases hl : last (key x) with
  | none =>
    rw [h.last_eq, Option.map_eq_none_iff, List.getLast?_eq_none_iff] at hl
    rw [hl]
    exact iff_of_true rfl fun y hy => absurd hy List.not_mem_nil
  | some previous =>
    dsimp only
    rw [Bool.not_eq_true', decide_eq_false_iff_not, not_lt, le_sub_iff_add_le, add_comm]
    constructor
    · exact fun hle y hy => (add_le_add_left (h.le_last hw hl hy) window).trans hle
    · intro hall
      rw [h.last_eq] at hl
      obtain ⟨y, hy, rfl⟩ := Option.map_eq_some_iff.mp hl
      exact hall y (List.mem_of_getLast? hy)

theorem Spaced.attempt (h : Spaced key time window last xs) (hw : 0 ≤ window) (x : α) :
    Spaced key time window (attempt key time window last x)
      (xs ++ if lets key time window last x then [x] else []) := by
  unfold Limiter.attempt
  by_cases hl : lets key time window last x = true
  · rw [if_pos hl, if_pos hl]
    refine ⟨fun k => ?_, fun k => ?_⟩ <;> rw [under_append]
    · rw [Function.update_apply]
      by_cases hk : k = key x
      · rw [if_pos hk, under_own hk.symm, List.getLast?_concat, Option.map_some]
      · rw [if_neg hk, under_other (Ne.symm hk), List.append_nil, h.last_eq]
    · by_cases hk : k = key x
      · rw [under_own hk.symm]
        refine List.pairwise_append.mpr ⟨h.spaced k, List.pairwise_singleton _ _, ?_⟩
        intro y hy z hz
        rw [List.mem_singleton.mp hz]
        exact (h.lets_iff hw).mp hl y (hk ▸ hy)
      · rw [under_other (Ne.symm hk), List.append_nil]
        exact h.spaced k
  · rw [if_neg hl, if_neg hl, List.append_nil]
    exact h

theorem Spaced.run (h : Spaced key time window last xs) (hw : 0 ≤ window) (ys : List α) :
    Spaced key time window (after key time window last ys)
      (xs ++ passed key time window last ys) := by
  induction ys generalizing last xs with
  | nil =>
    rw [passed, List.append_nil]
    exact h
  | cons y ys ih =>
    rw [passed_cons, ← List.append_assoc]
    exact ih (h.attempt hw y)

/-! ## what a run passes -/

/-- an attempt after a run passes exactly when all that passed under its key are a window old -/
theorem lets_iff (hw : 0 ≤ window) (xs : List α) (x : α) :
    lets key time window (after key time window (fun _ => none) xs) x = true
      ↔ ∀ y ∈ under key (key x) (passed key time window (fun _ => none) xs),
          time y + window ≤ time x :=
  (Spaced.none.run hw xs).lets_iff hw

/-- what passes under a key is a window apart -/
theorem passed_spaced (hw : 0 ≤ window) (xs : List α) (k : κ) :
    (under key k (passed key time window (fun _ => none) xs)).Pairwise
      fun x y => time x + window ≤ time y :=
  (Spaced.none.run hw xs).spaced k

/-- of times a window apart, no more than windows fall in a span -/
theorem length_le_of_spaced (xs : List α) (n : Nat) (a : T)
    (h : xs.Pairwise fun x y => time x + window ≤ time y)
    (ha : ∀ x ∈ xs, a ≤ time x ∧ time x < a + n • window) : xs.length ≤ n := by
  induction xs generalizing n a with
  | nil => exact Nat.zero_le _
  | cons x xs ih =>
    obtain ⟨hax, hxn⟩ := ha x List.mem_cons_self
    cases n with
    | zero =>
      rw [zero_nsmul, add_zero] at hxn
      exact absurd hax hxn.not_ge
    | succ n =>
      obtain ⟨hx, hxs⟩ := List.pairwise_cons.mp h
      refine Nat.succ_le_succ (ih n (a + window) hxs fun y hy => ⟨?_, ?_⟩)
      · exact (add_le_add_left hax window).trans (hx y hy)
      · rw [add_assoc, ← succ_nsmul']
        exact (ha y (List.mem_cons_of_mem _ hy)).2

/-- no more pass under a key than there are windows in a span -/
theorem passed_count (hw : 0 ≤ window) (xs : List α) (k : κ) (a : T) (n : Nat) :
    ((under key k (passed key time window (fun _ => none) xs)).filter
      fun x => decide (a ≤ time x ∧ time x < a + n • window)).length ≤ n :=
  length_le_of_spaced _ n a ((passed_spaced hw xs k).filter _)
    fun x hx => of_decide_eq_true (List.mem_filter.mp hx).2

/-- what passes under a key is told by the attempts under it -/
theorem passed_apart (k : κ) (xs : List α) (last last' : κ → Option T) (h : last k = last' k) :
    under key k (passed key time window last xs)
      = passed key time window last' (under key k xs) := by
  induction xs generalizing last last' with
  | nil => rfl
  | cons x xs ih =>
    rw [passed_cons, under_append]
    by_cases hk : key x = k
    · have hlets : lets key time window last x = lets key time window last' x := by
        unfold lets
        rw [hk, h]
      have hnext : attempt key time window last x k = attempt key time window last' x k := by
        unfold attempt
        rw [hlets]
        split
        · rw [hk, Function.update_self, Function.update_self]
        · exact h
      rw [ih _ _ hnext, show under key k (x :: xs) = x :: under key k xs from
        List.filter_cons_of_pos (decide_eq_true hk), passed_cons, hlets]
      split
      · rw [under_own hk]
      · rfl
    · have hnext : attempt key time window last x k = last' k := by
        unfold attempt
        split
        · rw [Function.update_of_ne (Ne.symm hk), h]
        · exact h
      rw [ih _ last' hnext, show under key k (x :: xs) = under key k xs from
        List.filter_cons_of_neg (by simpa using hk)]
      split
      · rw [under_other hk, List.nil_append]
      · rfl

end

end Limiter
