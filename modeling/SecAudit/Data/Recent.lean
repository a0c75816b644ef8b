import Mathlib.Data.List.DropRight
import Mathlib.Data.List.Infix
import Mathlib.Order.Lattice

/-!
# The recent entries of a log

A log grows at its end, with ever larger scores.

* `List.rtake`      its last entries;
* `suffix_filter`   the entries above a bound are at its end;
* `Recent`          a list holds the last `cap` entries of a log, except for some up to a bound;
* `Recent.filter_eq`  above the bound nothing is missing;
* `Recent.append`   it still does when it is pruned and an entry is added.
-/

set_option linter.unusedVariables false

namespace List

section
variable {α : Type}

theorem rtake_suffix (n : Nat) (l : List α) : l.rtake n <:+ l := drop_suffix _ l

theorem length_rtake_le (n : Nat) (l : List α) : (l.rtake n).length ≤ n := by
  unfold rtake
  rw [length_drop]
  omega

theorem rtake_of_length_le {n : Nat} {l : List α} (h : l.length ≤ n) : l.rtake n = l := by
  unfold rtake
  rw [Nat.sub_eq_zero_of_le h, drop_zero]

theorem length_rtake {n : Nat} {l : List α} (h : n ≤ l.length) : (l.rtake n).length = n := by
  unfold rtake
  rw [length_drop]
  omega

/-- a suffix that is short enough is one of the last entries -/
theorem suffix_rtake {n : Nat} {z l : List α} (h : z <:+ l) (hn : z.length ≤ n) :
    z <:+ l.rtake n := by
  by_cases hl : l.length ≤ n
  · rwa [rtake_of_length_le hl]
  · refine suffix_of_suffix_length_le h (rtake_suffix n l) ?_
    rw [length_rtake (by omega)]
    exact hn

/-- the last entries of a list that has enough of them are those of the whole -/
theorem rtake_of_suffix {n : Nat} {z l : List α} (h : z <:+ l) (hn : n ≤ z.length) :
    z.rtake n = l.rtake n := by
  obtain ⟨y, rfl⟩ := h
  unfold rtake
  rw [length_append, Nat.add_sub_assoc hn, drop_append]
  simp

theorem rtake_map {β : Type} (f : α → β) (n : Nat) (l : List α) :
    (l.map f).rtake n = (l.rtake n).map f := by
  unfold rtake
  rw [length_map, map_drop]

/-- adding entries to the last `n` of a log -/
theorem rtake_rtake_append (n : Nat) (l m : List α) :
    (l.rtake n ++ m).rtake n = (l ++ m).rtake n := by
  by_cases hl : l.length ≤ n
  · rw [rtake_of_length_le hl]
  · obtain ⟨y, hy⟩ := rtake_suffix n l
    refine rtake_of_suffix ⟨y, ?_⟩ ?_
    · rw [← append_assoc, hy]
    · rw [length_append, length_rtake (by omega)]
      exact Nat.le_add_right ..

end

section
variable {α T : Type} [LinearOrder T] {score : α → T}

/-- the scores grow -/
def Growing (score : α → T) (l : List α) : Prop := l.Pairwise fun x y => score x < score y

theorem Growing.sublist {z l : List α} (h : Growing score l) (hs : z.Sublist l) :
    Growing score z := Pairwise.sublist hs h

/-- the entries above a bound are at the end -/
theorem suffix_filter {l : List α} (h : Growing score l) (bound : T) :
    l.filter (fun x => decide (bound < score x)) <:+ l := by
  induction l with
  | nil => exact suffix_refl []
  | cons x l ih =>
    obtain ⟨hx, hl⟩ := pairwise_cons.mp h
    by_cases hb : bound < score x
    · have hall : (x :: l).filter (fun y => decide (bound < score y)) = x :: l := by
        refine filter_eq_self.mpr fun y hy => decide_eq_true ?_
        rcases mem_cons.mp hy with rfl | hy
        · exact hb
        · exact lt_trans hb (hx y hy)
      rw [hall]
    · rw [filter_cons_of_neg (by simpa using hb)]
      exact (ih hl).trans (suffix_cons x l)

/-- the last `cap` entries of the log, perhaps without some up to `bound` -/
structure Recent (score : α → T) (cap : Nat) (bound : T) (z l : List α) : Prop where
  suffix : z <:+ l
  length_le : z.length ≤ cap
  complete : ∀ x ∈ l.rtake cap, bound < score x → x ∈ z

namespace Recent
variable {cap : Nat} {bound : T} {z l : List α}

/-- above the bound nothing is missing -/
theorem filter_eq (h : Recent score cap bound z l) (hl : Growing score l) {since : T}
    (hs : bound ≤ since) : z.filter (fun x => decide (since < score x))
      = (l.rtake cap).filter fun x => decide (since < score x) := by
  obtain ⟨y, hy⟩ := suffix_rtake h.suffix h.length_le
  have hgrow : Growing score (y ++ z) := by
    rw [hy]
    exact hl.sublist (rtake_suffix cap l).sublist
  have hnone : y.filter (fun x => decide (since < score x)) = [] := by
    refine filter_eq_nil_iff.mpr fun x hx hd => ?_
    have hlt : since < score x := of_decide_eq_true hd
    have hz : x ∈ z := h.complete x (by rw [← hy]; exact mem_append_left z hx)
      (lt_of_le_of_lt hs hlt)
    exact lt_irrefl _ ((pairwise_append.mp hgrow).2.2 x hx x hz)
  rw [← hy, filter_append, hnone, nil_append]

/-- an entry is added to what is above a floor, and the oldest ones make room for it -/
theorem append (h : Recent score cap bound z l) {x : α} (hl : Growing score (l ++ [x]))
    (hcap : 1 ≤ cap) {floor : T} (hfloor : floor ≤ bound) :
    Recent score cap bound
      ((z.filter (fun y => decide (floor < score y)) ++ [x]).rtake cap) (l ++ [x]) := by
  have hz : Growing score z :=
    (hl.sublist (sublist_append_left l [x])).sublist h.suffix.sublist
  have hsuffix : z.filter (fun y => decide (floor < score y)) ++ [x] <:+ l ++ [x] :=
    suffix_append_self_iff.mpr ((suffix_filter hz floor).trans h.suffix)
  refine ⟨(rtake_suffix cap _).trans hsuffix, length_rtake_le cap _, fun e he hlt => ?_⟩
  by_cases hlen : cap ≤ (z.filter (fun y => decide (floor < score y)) ++ [x]).length
  · rwa [rtake_of_suffix hsuffix hlen]
  · -- there is room for all
    rw [rtake_of_length_le (by omega)]
    rcases mem_append.mp ((rtake_suffix cap _).subset he) with hmem | hmem
    · have hold : e ∈ l.rtake cap := by
        obtain ⟨n, rfl⟩ : ∃ n, cap = n + 1 := ⟨cap - 1, by omega⟩
        rw [rtake_concat_succ] at he
        rcases mem_append.mp he with he | he
        · have hs : l.rtake n <:+ l.rtake (n + 1) :=
            suffix_rtake (rtake_suffix n l) ((length_rtake_le n l).trans (Nat.le_succ n))
          exact hs.subset he
        · obtain rfl := mem_singleton.mp he
          exact absurd ((pairwise_append.mp hl).2.2 e hmem e mem_cons_self) (lt_irrefl _)
      refine mem_append_left _ (mem_filter.mpr ⟨h.complete e hold hlt, ?_⟩)
      exact decide_eq_true (lt_of_le_of_lt hfloor hlt)
    · exact mem_append_right _ hmem

/-- everything is up to the bound: nothing need be there -/
theorem of_le (hb : ∀ x ∈ l, score x ≤ bound) : Recent score cap bound [] l := by
  refine ⟨nil_suffix, Nat.zero_le cap, fun x hx hlt => ?_⟩
  exact absurd hlt (not_lt_of_ge (hb x ((rtake_suffix cap l).subset hx)))

theorem mono (h : Recent score cap bound z l) {bound' : T} (hb : bound ≤ bound') :
    Recent score cap bound' z l :=
  ⟨h.suffix, h.length_le, fun x hx hlt => h.complete x hx (lt_of_le_of_lt hb hlt)⟩

end Recent

end

end List
