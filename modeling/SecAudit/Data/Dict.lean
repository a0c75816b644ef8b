import Mathlib.Data.List.Nodup
import Mathlib.Data.List.Perm.Subperm
import Mathlib.Logic.Function.Basic
import Mathlib.Order.Basic

/-!
# Dictionaries in insertion order

* `Dict`            the items of a `dict` or an `OrderedDict`, each key once;
* `get`, `set`, `setLast`, `pop`, `keep`, `dropFirst`  the operations: `setLast` also moves the key
                    to the end, `dropFirst` removes the oldest items;
* `get_eq_some`     a key holds a value exactly when the item is there; `get_set`, `get_setLast`,
                    `get_pop`, `get_keep` follow.
-/

set_option linter.unusedVariables false
set_option linter.unusedSectionVars false

structure Dict (κ ν : Type) where
  items : List (κ × ν)
  nodup : (items.map Prod.fst).Nodup

namespace Dict

section
variable {κ ν : Type}

def empty : Dict κ ν := ⟨[], List.nodup_nil⟩

def keys (d : Dict κ ν) : List κ := d.items.map Prod.fst

def size (d : Dict κ ν) : Nat := d.items.length

/-- keep the items that `p` picks -/
def keep (p : κ → ν → Bool) (d : Dict κ ν) : Dict κ ν where
  items := d.items.filter fun e => p e.1 e.2
  nodup := (List.filter_sublist.map Prod.fst).nodup d.nodup

/-- remove the oldest `n` items -/
def dropFirst (n : Nat) (d : Dict κ ν) : Dict κ ν where
  items := d.items.drop n
  nodup := ((List.drop_sublist n d.items).map Prod.fst).nodup d.nodup

variable [DecidableEq κ]

def get (k : κ) (d : Dict κ ν) : Option ν :=
  (d.items.find? fun e => decide (e.1 = k)).map Prod.snd

def pop (k : κ) (d : Dict κ ν) : Dict κ ν := keep (fun k' _ => decide (k' ≠ k)) d

/-- `d[k] = v; d.move_to_end(k)` -/
def setLast (k : κ) (v : ν) (d : Dict κ ν) : Dict κ ν where
  items := (d.pop k).items ++ [(k, v)]
  nodup := by
    rw [List.map_append, List.nodup_append]
    refine ⟨(d.pop k).nodup, List.pairwise_singleton _ _, ?_⟩
    rintro k₁ h₁ k₂ h₂ rfl
    obtain ⟨e, he, rfl⟩ := List.mem_map.mp h₁
    have hne := (List.mem_filter.mp he).2
    rw [decide_eq_true_eq] at hne
    exact hne (List.mem_singleton.mp h₂)

/-- `d[k] = v` where `k` is there: the item keeps its place -/
def replace (k : κ) (v : ν) (d : Dict κ ν) : Dict κ ν where
  items := d.items.map fun e => if e.1 = k then (k, v) else e
  nodup := by
    have he : (d.items.map fun e => if e.1 = k then (k, v) else e).map Prod.fst
        = d.items.map Prod.fst := by
      rw [List.map_map]
      refine List.map_congr_left fun e _ => ?_
      show (if e.1 = k then (k, v) else e).1 = e.1
      split
      · rename_i h
        exact h.symm
      · rfl
    rw [he]
    exact d.nodup

/-- `d[k] = v` -/
def set (k : κ) (v : ν) (d : Dict κ ν) : Dict κ ν :=
  if (d.get k).isSome then d.replace k v else d.setLast k v

/-- `dict(items)` -/
def ofItems (l : List (κ × ν)) : Dict κ ν := l.foldl (fun d e => d.set e.1 e.2) empty

/-! ## what a key holds -/

variable {d : Dict κ ν} {k : κ} {v : ν}

theorem get_empty (k : κ) : (empty : Dict κ ν).get k = none := rfl

theorem get_eq_some : d.get k = some v ↔ (k, v) ∈ d.items := by
  unfold get
  constructor
  · intro h
    obtain ⟨e, he, rfl⟩ := Option.map_eq_some_iff.mp h
    obtain rfl : e.1 = k := by simpa using List.find?_some he
    exact List.mem_of_find?_eq_some he
  · intro h
    have hs : (d.items.find? fun e => decide (e.1 = k)).isSome := by
      rw [List.find?_isSome]
      exact ⟨(k, v), h, decide_eq_true rfl⟩
    obtain ⟨e, he⟩ := Option.isSome_iff_exists.mp hs
    have hk : e.1 = k := by simpa using List.find?_some he
    have hev : e = (k, v) :=
      List.inj_on_of_nodup_map d.nodup (List.mem_of_find?_eq_some he) h hk
    rw [he, hev]
    rfl

theorem get_eq_none : d.get k = none ↔ k ∉ d.keys := by
  unfold get keys
  rw [Option.map_eq_none_iff, List.find?_eq_none, List.mem_map]
  constructor
  · rintro h ⟨e, he, rfl⟩
    exact h e he (decide_eq_true rfl)
  · intro h e he hk
    exact h ⟨e, he, of_decide_eq_true hk⟩

theorem mem_keys : k ∈ d.keys ↔ ∃ v, d.get k = some v := by
  rw [← not_iff_not, ← get_eq_none, not_exists, Option.eq_none_iff_forall_ne_some]

theorem get_keep (p : κ → ν → Bool) (k : κ) (d : Dict κ ν) :
    (d.keep p).get k = (d.get k).filter (p k) := by
  refine Option.ext fun v => ?_
  rw [get_eq_some, Option.filter_eq_some_iff, get_eq_some]
  exact List.mem_filter

theorem get_pop (k k' : κ) (d : Dict κ ν) :
    (d.pop k).get k' = if k' = k then none else d.get k' := by
  unfold pop
  rw [get_keep]
  by_cases h : k' = k
  · rw [if_pos h]
    simp [h]
  · rw [if_neg h]
    cases d.get k' with
    | none => rfl
    | some v => exact if_pos (decide_eq_true h)

theorem get_setLast (k k' : κ) (v : ν) (d : Dict κ ν) :
    (d.setLast k v).get k' = if k' = k then some v else d.get k' := by
  by_cases h : k' = k
  · subst h
    rw [if_pos rfl, get_eq_some]
    exact List.mem_append_right _ List.mem_cons_self
  · rw [if_neg h, ← (get_pop k k' d).trans (if_neg h)]
    refine Option.ext fun v' => ?_
    rw [get_eq_some, get_eq_some]
    show _ ∈ (d.pop k).items ++ [(k, v)] ↔ _
    rw [List.mem_append, List.mem_singleton, Prod.mk.injEq]
    exact or_iff_left fun hv => h hv.1

theorem get_set (k k' : κ) (v : ν) (d : Dict κ ν) :
    (d.set k v).get k' = if k' = k then some v else d.get k' := by
  unfold set
  split
  · rename_i hs
    refine Option.ext fun v' => ?_
    rw [get_eq_some]
    show (k', v') ∈ d.items.map _ ↔ _
    rw [List.mem_map]
    by_cases h : k' = k
    · subst h
      rw [if_pos rfl]
      obtain ⟨w, hw⟩ := Option.isSome_iff_exists.mp hs
      constructor
      · rintro ⟨e, he, heq⟩
        split at heq
        · rw [Prod.mk.injEq] at heq
          rw [heq.2]
        · rename_i hne
          exact absurd (by rw [heq]) hne
      · intro hv
        obtain rfl := Option.some.inj hv
        exact ⟨(k', w), get_eq_some.mp hw, if_pos rfl⟩
    · rw [if_neg h, get_eq_some]
      constructor
      · rintro ⟨e, he, heq⟩
        split at heq
        · rw [Prod.mk.injEq] at heq
          exact absurd heq.1.symm h
        · rwa [← heq]
      · exact fun hm => ⟨(k', v'), hm, if_neg h⟩
  · exact get_setLast k k' v d

theorem get_foldl_set {k : κ} : ∀ {l : List (κ × ν)} {d : Dict κ ν}, (l.map Prod.fst).Nodup →
    (l.foldl (fun d e => d.set e.1 e.2) d).get k
      = ((l.find? fun e => decide (e.1 = k)).map Prod.snd).or (d.get k)
  | [], _, _ => rfl
  | e :: l, d, h => by
    rw [List.map_cons, List.nodup_cons] at h
    rw [List.foldl_cons, get_foldl_set h.2, get_set]
    by_cases hk : e.1 = k
    · subst hk
      have hnone : l.find? (fun e' => decide (e'.1 = e.1)) = none :=
        List.find?_eq_none.mpr fun e' he' hk' =>
          h.1 (List.mem_map.mpr ⟨e', he', of_decide_eq_true hk'⟩)
      rw [if_pos rfl, hnone, List.find?_cons_of_pos (by simp)]
      rfl
    · rw [if_neg (Ne.symm hk), List.find?_cons_of_neg (by simpa using hk)]

/-- items with keys of their own are found -/
theorem get_ofItems {l : List (κ × ν)} (h : (l.map Prod.fst).Nodup) (k : κ) :
    (ofItems l).get k = (l.find? fun e => decide (e.1 = k)).map Prod.snd := by
  unfold ofItems
  rw [get_foldl_set h, get_empty, Option.or_none]

/-- the dictionary as a function, after `pop` -/
theorem fun_pop (k : κ) (d : Dict κ ν) :
    (fun k' => (d.pop k).get k') = Function.update (fun k' => d.get k') k none := by
  funext k'
  rw [get_pop, Function.update_apply]

theorem fun_setLast (k : κ) (v : ν) (d : Dict κ ν) :
    (fun k' => (d.setLast k v).get k') = Function.update (fun k' => d.get k') k (some v) := by
  funext k'
  rw [get_setLast, Function.update_apply]

/-! ## keys -/

theorem keys_keep (p : κ → ν → Bool) (d : Dict κ ν) : (d.keep p).keys ⊆ d.keys :=
  (List.filter_sublist.map Prod.fst).subset

theorem keys_setLast (k : κ) (v : ν) (d : Dict κ ν) : (d.setLast k v).keys ⊆ k :: d.keys := by
  intro k' hk
  obtain ⟨v', hv⟩ := mem_keys.mp hk
  rw [get_setLast] at hv
  by_cases h : k' = k
  · exact h ▸ List.mem_cons_self
  · rw [if_neg h] at hv
    exact List.mem_cons_of_mem _ (mem_keys.mpr ⟨v', hv⟩)

theorem keys_set (k : κ) (v : ν) (d : Dict κ ν) : (d.set k v).keys ⊆ k :: d.keys := by
  intro k' hk
  obtain ⟨v', hv⟩ := mem_keys.mp hk
  rw [get_set] at hv
  by_cases h : k' = k
  · exact h ▸ List.mem_cons_self
  · rw [if_neg h] at hv
    exact List.mem_cons_of_mem _ (mem_keys.mpr ⟨v', hv⟩)

theorem keys_replace (k : κ) (v : ν) (d : Dict κ ν) : (d.replace k v).keys = d.keys := by
  show (d.items.map fun e => if e.1 = k then (k, v) else e).map Prod.fst = d.items.map Prod.fst
  rw [List.map_map]
  refine List.map_congr_left fun e _ => ?_
  show (if e.1 = k then (k, v) else e).1 = e.1
  split
  · rename_i h
    exact h.symm
  · rfl

/-- a new key goes to the end -/
theorem keys_set_eq (k : κ) (v : ν) (d : Dict κ ν) :
    (d.set k v).keys = if k ∈ d.keys then d.keys else d.keys ++ [k] := by
  unfold set
  by_cases h : k ∈ d.keys
  · obtain ⟨w, hw⟩ := mem_keys.mp h
    rw [if_pos h, hw, Option.isSome_some, if_pos rfl, keys_replace]
  · rw [if_neg h, get_eq_none.mpr h, Option.isSome_none, if_neg Bool.false_ne_true]
    have hpop : (d.pop k).items = d.items :=
      List.filter_eq_self.mpr fun e he => decide_eq_true fun hk =>
        h (hk ▸ List.mem_map_of_mem he)
    show ((d.pop k).items ++ [(k, v)]).map Prod.fst = _
    rw [hpop, List.map_append]
    rfl

theorem keys_dropFirst (n : Nat) (d : Dict κ ν) : (d.dropFirst n).keys = d.keys.drop n :=
  List.map_drop

theorem size_eq (d : Dict κ ν) : d.size = d.keys.length := (List.length_map _).symm

/-- the oldest keys are gone, the others hold what they held -/
theorem get_dropFirst (n : Nat) (k : κ) (d : Dict κ ν) :
    (d.dropFirst n).get k = if k ∈ d.keys.take n then none else d.get k := by
  have hn : (d.keys.take n ++ d.keys.drop n).Nodup := by
    rw [List.take_append_drop]
    exact d.nodup
  split
  · rename_i h
    rw [get_eq_none, keys_dropFirst]
    exact fun h' => (List.nodup_append.mp hn).2.2 k h k h' rfl
  · rename_i h
    refine Option.ext fun v => ?_
    rw [get_eq_some, get_eq_some]
    refine ⟨fun hm => List.mem_of_mem_drop hm, fun hm => ?_⟩
    rw [← List.take_append_drop n d.items] at hm
    refine (List.mem_append.mp hm).resolve_left fun hm => h ?_
    unfold keys
    rw [← List.map_take]
    exact List.mem_map_of_mem hm

/-- the keys are among `l`: no more items than that -/
theorem size_le {l : List κ} (h : d.keys ⊆ l) : d.size ≤ l.length := by
  have hl : d.keys.length ≤ l.length := (List.Nodup.subperm d.nodup h).length_le
  unfold keys at hl
  rwa [List.length_map] at hl

theorem dropFirst_zero (d : Dict κ ν) : d.dropFirst 0 = d := rfl

end

end Dict
