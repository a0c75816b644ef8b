import Mathlib.Algebra.Order.Monoid.Defs
import Mathlib.Data.List.Count
import Mathlib.Data.List.Induction
import Mathlib.Tactic.Common

/-!
# Hits counted in windows

A hit that no window covers opens one, which lasts for a span; the hits it covers are counted. The
open window can be forgotten at any time.

* `HitWindow`       an open window: since when, and how many hits;
* `Beat`            a hit, or that the window is forgotten;
* `HitWindow.after` what a run of beats leaves;
* `Backed`          a window counts only hits that came since it opened;
* `hit_backed`      what a hit reports is at most the number of hits of the last span;
* `burst_counted`   among `2n - 2` hits within a span one is reported as the `n`-th or a later one.
-/

set_option linter.unusedVariables false
set_option linter.unusedSectionVars false

/-- an open window -/
structure HitWindow (T : Type) where
  since : T
  hits : Nat

inductive Beat (T : Type) where
  | hit (now : T)
  | forget
deriving DecidableEq

namespace HitWindow

section
variable {T : Type} [AddCommMonoid T] [LinearOrder T] [IsOrderedAddMonoid T] (span : T)

/-- the window covers `now` -/
def Covers (now : T) (v : HitWindow T) : Prop := now < v.since + span

instance (now : T) (v : HitWindow T) : Decidable (v.Covers span now) :=
  inferInstanceAs (Decidable (_ < _))

/-- the window that a hit is counted in -/
def hit (now : T) (w : Option (HitWindow T)) : HitWindow T :=
  match w with
  | some v => if v.Covers span now then ⟨v.since, v.hits + 1⟩ else ⟨now, 1⟩
  | none => ⟨now, 1⟩

def step (w : Option (HitWindow T)) : Beat T → Option (HitWindow T)
  | .hit now => some (hit span now w)
  | .forget => none

/-- the open window after a run -/
def after (w : Option (HitWindow T)) (xs : List (Beat T)) : Option (HitWindow T) :=
  xs.foldl (step span) w

end

end HitWindow

/-- the times of the hits of a run -/
def hitsOf {T : Type} (xs : List (Beat T)) : List T :=
  xs.filterMap fun x => match x with
    | .hit now => some now
    | .forget => none

section
variable {T : Type} [AddCommMonoid T] [LinearOrder T] [IsOrderedAddMonoid T] {span now : T}
  {w : Option (HitWindow T)} {v : HitWindow T} {past : List T}

/-! ## one hit -/

theorem hit_covered (h : v.Covers span now) :
    HitWindow.hit span now (some v) = ⟨v.since, v.hits + 1⟩ := if_pos h

theorem hit_late (h : ¬ v.Covers span now) : HitWindow.hit span now (some v) = ⟨now, 1⟩ := if_neg h

/-- a hit is counted in the window that is open, or it is the first of one -/
theorem hit_cases (span now : T) (w : Option (HitWindow T)) :
    (∃ v, w = some v ∧ v.Covers span now ∧ HitWindow.hit span now w = ⟨v.since, v.hits + 1⟩) ∨
    ((∀ v ∈ w, ¬ v.Covers span now) ∧ HitWindow.hit span now w = ⟨now, 1⟩) := by
  cases w with
  | none => exact .inr ⟨fun v hv => absurd hv (Option.not_mem_none v), rfl⟩
  | some v =>
    by_cases h : v.Covers span now
    · exact .inl ⟨v, rfl, h, hit_covered h⟩
    · exact .inr ⟨fun v' hv => Option.mem_some_iff.mp hv ▸ h, hit_late h⟩

/-- the window of a hit covers it -/
theorem hit_covers (hspan : now < now + span) : (HitWindow.hit span now w).Covers span now := by
  rcases hit_cases span now w with ⟨v, -, hv, he⟩ | ⟨-, he⟩
  · rw [he]
    exact hv
  · rw [he]
    exact hspan

theorem hit_pos : 0 < (HitWindow.hit span now w).hits := by
  rcases hit_cases span now w with ⟨v, -, -, he⟩ | ⟨-, he⟩
  · rw [he]
    exact Nat.succ_pos _
  · rw [he]
    exact Nat.one_pos

/-! ## counted hits have come -/

/-- a window counts hits, and only those that came since it opened -/
structure Backed (past : List T) (v : HitWindow T) : Prop where
  pos : 0 < v.hits
  counted : v.hits ≤ past.countP fun t => decide (v.since ≤ t)

/-- a window opened no later than the last hit -/
theorem Backed.since_le (h : Backed past v) (hpast : ∀ t ∈ past, t ≤ now) : v.since ≤ now := by
  obtain ⟨t, ht, hle⟩ := List.countP_pos_iff.mp (h.pos.trans_le h.counted)
  exact (of_decide_eq_true hle).trans (hpast t ht)

theorem backed_hit (hw : ∀ v ∈ w, Backed past v) (hpast : ∀ t ∈ past, t ≤ now) :
    Backed (past ++ [now]) (HitWindow.hit span now w) := by
  rcases hit_cases span now w with ⟨v, hv, -, he⟩ | ⟨-, he⟩
  · have hb := hw v hv
    rw [he]
    refine ⟨Nat.succ_pos _, ?_⟩
    rw [List.countP_append, List.countP_singleton, if_pos (decide_eq_true (hb.since_le hpast))]
    exact Nat.succ_le_succ hb.counted
  · rw [he]
    refine ⟨Nat.one_pos, ?_⟩
    rw [List.countP_append, List.countP_singleton, if_pos (decide_eq_true le_rfl)]
    exact Nat.le_add_left 1 _

theorem hitsOf_append (xs ys : List (Beat T)) : hitsOf (xs ++ ys) = hitsOf xs ++ hitsOf ys :=
  List.filterMap_append

theorem HitWindow.after_append (w : Option (HitWindow T)) (xs ys : List (Beat T)) :
    HitWindow.after span w (xs ++ ys) = HitWindow.after span (HitWindow.after span w xs) ys :=
  List.foldl_append

/-- **the window after a run** is backed by the hits of the run -/
theorem backed_after {xs : List (Beat T)} (h : (hitsOf xs).Pairwise (· ≤ ·)) :
    ∀ v ∈ HitWindow.after span none xs, Backed (hitsOf xs) v := by
  induction xs using List.reverseRecOn with
  | nil => exact fun v hv => absurd hv (Option.not_mem_none v)
  | append_singleton xs x ih =>
    rw [hitsOf_append] at h ⊢
    rw [HitWindow.after_append]
    have hxs := List.pairwise_append.mp h
    cases x with
    | forget => exact fun v hv => absurd hv (Option.not_mem_none v)
    | hit now =>
      intro v hv
      rw [← Option.mem_some_iff.mp hv]
      exact backed_hit (ih hxs.1) fun t ht => hxs.2.2 t ht now List.mem_cons_self

/-- **a hit reports no more** than the hits of the last span, itself among them -/
theorem hit_backed (hspan : now < now + span) (hw : ∀ v ∈ w, Backed past v)
    (hpast : ∀ t ∈ past, t ≤ now) : (HitWindow.hit span now w).hits
      ≤ (past ++ [now]).countP fun t => decide (now < t + span) := by
  refine (backed_hit hw hpast).counted.trans (List.countP_mono_left fun t _ ht => ?_)
  exact decide_eq_true ((hit_covers (w := w) hspan).trans_le
    (add_le_add_left (of_decide_eq_true ht) span))

/-! ## a burst of hits -/

/-- `i` hits of a burst, none reported above `most`, have left a window: one that opened in the
burst, or one from before it, that has counted them all -/
inductive Bursting (start : T) (most i : Nat) (v : HitWindow T) : Prop where
  | opened (hs : start ≤ v.since) (hcount : i + 1 ≤ most + v.hits)
  | earlier (hcount : i + 1 ≤ v.hits)

variable {start : T} {most n i : Nat} {ts : List T}

theorem bursting_first (hw : ∀ v ∈ w, 0 < v.hits) (hnow : start ≤ now)
    (hmost : (HitWindow.hit span now w).hits ≤ most) :
    Bursting start most 1 (HitWindow.hit span now w) := by
  rcases hit_cases span now w with ⟨v, hv, -, he⟩ | ⟨-, he⟩
  · rw [he]
    exact .earlier (Nat.succ_le_succ (hw v hv))
  · rw [he] at hmost ⊢
    exact .opened hnow (Nat.succ_le_succ hmost)

/-- one more hit: a window that opened in the burst covers it -/
theorem bursting_hit (h : Bursting start most i v) (hv : v.hits ≤ most) (hnow : start ≤ now)
    (hend : now < start + span) :
    Bursting start most (i + 1) (HitWindow.hit span now (some v)) := by
  cases h with
  | opened hs hcount =>
    rw [hit_covered (show v.Covers span now from hend.trans_le (add_le_add_left hs span))]
    exact .opened hs (Nat.succ_le_succ hcount)
  | earlier hcount =>
    by_cases hc : v.Covers span now
    · rw [hit_covered hc]
      exact .earlier (Nat.succ_le_succ hcount)
    · rw [hit_late hc]
      exact .opened hnow (Nat.succ_le_succ (hcount.trans hv))

theorem bursting_run : ∀ {ts : List T} {v : HitWindow T} {i : Nat}, Bursting start most i v →
    v.hits ≤ most → (∀ t ∈ ts, start ≤ t ∧ t < start + span) →
    (∀ pre t post, ts = pre ++ t :: post →
      (HitWindow.hit span t (HitWindow.after span (some v) (pre.map .hit))).hits ≤ most) →
    i + ts.length + 1 ≤ 2 * most
  | [], v, i, h, hv, _, _ => by
    rw [List.length_nil]
    cases h with
    | opened hs hcount => omega
    | earlier hcount => omega
  | t :: ts, v, i, h, hv, hts, hmost => by
    obtain ⟨hstart, hend⟩ := hts t List.mem_cons_self
    have hrest := bursting_run (bursting_hit h hv hstart hend) (hmost [] t ts rfl)
      (fun t' ht' => hts t' (List.mem_cons_of_mem t ht'))
      fun pre t' post he => hmost (t :: pre) t' post (by rw [he, List.cons_append])
    rw [List.length_cons]
    omega

/-- **a burst is counted**: the window may roll over once in it, and then the hits before or those
after are enough -/
theorem burst_counted (hw : ∀ v ∈ w, 0 < v.hits) (hne : ts ≠ [])
    (hts : ∀ t ∈ ts, start ≤ t ∧ t < start + span) (hn : 2 * n ≤ ts.length + 2) :
    ∃ pre t post, ts = pre ++ t :: post ∧
      n ≤ (HitWindow.hit span t (HitWindow.after span w (pre.map .hit))).hits := by
  by_contra hnone
  have hmost : ∀ pre t post, ts = pre ++ t :: post →
      (HitWindow.hit span t (HitWindow.after span w (pre.map .hit))).hits ≤ n - 1 := by
    intro pre t post he
    by_contra hlt
    exact hnone ⟨pre, t, post, he, by omega⟩
  cases ts with
  | nil => exact hne rfl
  | cons t ts =>
    have hfirst := hmost [] t ts rfl
    have hpos : 0 < (HitWindow.hit span t w).hits := hit_pos
    have hrun := bursting_run
      (bursting_first hw (hts t List.mem_cons_self).1 hfirst) hfirst
      (fun t' ht' => hts t' (List.mem_cons_of_mem t ht'))
      fun pre t' post he => hmost (t :: pre) t' post (by rw [he, List.cons_append])
    change 0 < (HitWindow.hit span t (HitWindow.after span w [])).hits at hpos
    rw [List.length_cons] at hn
    change (HitWindow.hit span t (HitWindow.after span w [])).hits ≤ n - 1 at hfirst
    omega

end
