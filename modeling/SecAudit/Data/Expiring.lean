import Mathlib.Data.List.Basic

/-!
# Maps whose entries expire

An entry is a key with a value and the time from which it is no longer there.

* `ExpMap.get`       the value of a key at a time; `put`, `drop`, `evict` change the map;
* `get_put_same`, `get_put_other`, `get_drop_same`, `get_drop_other`, `get_evict`  what a read
                     sees after each of them;
* `get_later`        a value read later, with no change in between, was there before.
-/

set_option linter.unusedVariables false
set_option linter.unusedSectionVars false

/-- entries `(key, value, expiry)`, the first one of a key counts -/
abbrev ExpMap (κ ν : Type) := List (κ × ν × Int)

namespace ExpMap

section
variable {κ ν : Type} [DecidableEq κ]

def find (k : κ) (m : ExpMap κ ν) : Option (ν × Int) :=
  (List.find? (fun e => decide (e.1 = k)) m).map Prod.snd

def get (now : Int) (k : κ) (m : ExpMap κ ν) : Option ν :=
  match find k m with
  | some (v, e) => if now < e then some v else none
  | none => none

/-- keep the entries of the keys `p` picks -/
def keep (p : κ → Bool) (m : ExpMap κ ν) : ExpMap κ ν := m.filter fun e => p e.1

def drop (k : κ) (m : ExpMap κ ν) : ExpMap κ ν := keep (fun k' => decide (k' ≠ k)) m

def put (k : κ) (v : ν) (e : Int) (m : ExpMap κ ν) : ExpMap κ ν := (k, v, e) :: drop k m

def evict (p : κ → Bool) (m : ExpMap κ ν) : ExpMap κ ν := keep (fun k => !p k) m

/-- the keys with a value now -/
def liveKeys (now : Int) (m : ExpMap κ ν) : List κ :=
  (m.filter fun e => decide (now < e.2.2)).map Prod.fst

theorem find_cons_same (k : κ) (v : ν) (e : Int) (m : ExpMap κ ν) :
    find k ((k, v, e) :: m) = some (v, e) := by
  unfold find
  rw [List.find?_cons_of_pos (by simp)]
  rfl

theorem find_cons_other {k k' : κ} (v : ν) (e : Int) (m : ExpMap κ ν) (h : k' ≠ k) :
    find k ((k', v, e) :: m) = find k m := by
  unfold find
  rw [List.find?_cons_of_neg (by simpa using h)]

theorem find_keep (p : κ → Bool) (k : κ) (m : ExpMap κ ν) :
    find k (keep p m) = if p k then find k m else none := by
  induction m with
  | nil => cases p k <;> rfl
  | cons e m ih =>
    obtain ⟨k', v, x⟩ := e
    unfold keep at ih ⊢
    by_cases hk : k' = k
    · subst hk
      by_cases hp : p k' = true
      · rw [List.filter_cons_of_pos (by simpa using hp), find_cons_same, find_cons_same, if_pos hp]
      · rw [List.filter_cons_of_neg (by simpa using hp), ih, if_neg hp, if_neg hp]
    · by_cases hp : p k' = true
      · rw [List.filter_cons_of_pos (by simpa using hp), find_cons_other _ _ _ hk,
          find_cons_other _ _ _ hk, ih]
      · rw [List.filter_cons_of_neg (by simpa using hp), find_cons_other _ _ _ hk, ih]

theorem get_keep (now : Int) (p : κ → Bool) (k : κ) (m : ExpMap κ ν) :
    get now k (keep p m) = if p k then get now k m else none := by
  unfold get
  rw [find_keep]
  cases p k <;> rfl

theorem get_drop_same (now : Int) (k : κ) (m : ExpMap κ ν) : get now k (drop k m) = none := by
  unfold drop
  rw [get_keep, if_neg (by simp)]

theorem get_drop_other {k k' : κ} (now : Int) (m : ExpMap κ ν) (h : k ≠ k') :
    get now k (drop k' m) = get now k m := by
  unfold drop
  rw [get_keep, if_pos (by simpa using h)]

theorem get_put_same (now : Int) (k : κ) (v : ν) (e : Int) (m : ExpMap κ ν) :
    get now k (put k v e m) = if now < e then some v else none := by
  unfold get put
  rw [find_cons_same]

theorem get_put_other {k k' : κ} (now : Int) (v : ν) (e : Int) (m : ExpMap κ ν) (h : k ≠ k') :
    get now k (put k' v e m) = get now k m := by
  have hf : find k (put k' v e m) = find k (drop k' m) := find_cons_other _ _ _ (Ne.symm h)
  have hd := get_drop_other now m h
  unfold get at hd ⊢
  rw [hf]
  exact hd

theorem get_evict (now : Int) (p : κ → Bool) (k : κ) (m : ExpMap κ ν) :
    get now k (evict p m) = if p k then none else get now k m := by
  unfold evict
  rw [get_keep]
  cases p k <;> rfl

theorem keep_cons (p : κ → Bool) (k : κ) (v : ν) (e : Int) (m : ExpMap κ ν) :
    keep p ((k, v, e) :: m) = if p k then (k, v, e) :: keep p m else keep p m := by
  unfold keep
  rw [List.filter_cons]

theorem drop_comm (k k' : κ) (m : ExpMap κ ν) : drop k (drop k' m) = drop k' (drop k m) := by
  unfold drop keep
  rw [List.filter_filter, List.filter_filter]
  congr 1
  funext e
  exact Bool.and_comm _ _

theorem drop_put {k k' : κ} (v : ν) (e : Int) (m : ExpMap κ ν) (h : k ≠ k') :
    drop k' (put k v e m) = put k v e (drop k' m) := by
  have hf : drop k' (put k v e m) = (k, v, e) :: drop k' (drop k m) :=
    (keep_cons _ k v e (drop k m)).trans (if_pos (by simpa using h))
  rw [hf, drop_comm]
  rfl

theorem get_eq_some {now : Int} {k : κ} {v : ν} {m : ExpMap κ ν} :
    get now k m = some v ↔ ∃ e, find k m = some (v, e) ∧ now < e := by
  unfold get
  cases find k m with
  | none => simp
  | some p =>
    obtain ⟨u, e⟩ := p
    by_cases h : now < e
    · simp [h]
    · simp only [h, if_false, reduceCtorEq, false_iff, Option.some.injEq, Prod.mk.injEq]
      rintro ⟨e', ⟨-, rfl⟩, h'⟩
      exact h h'

theorem get_later {now now' : Int} {k : κ} {v : ν} {m : ExpMap κ ν} (h : get now' k m = some v)
    (hle : now ≤ now') : get now k m = some v := by
  obtain ⟨e, hf, he⟩ := get_eq_some.mp h
  exact get_eq_some.mpr ⟨e, hf, by omega⟩

theorem mem_liveKeys {now : Int} {k : κ} {v : ν} {m : ExpMap κ ν} (h : get now k m = some v) :
    k ∈ liveKeys now m := by
  obtain ⟨e, hf, he⟩ := get_eq_some.mp h
  obtain ⟨p, hp, hv⟩ := Option.map_eq_some_iff.mp hf
  have hk : p.1 = k := by simpa using List.find?_some hp
  unfold liveKeys
  refine List.mem_map.mpr ⟨p, List.mem_filter.mpr ⟨List.mem_of_find?_eq_some hp, ?_⟩, hk⟩
  rw [hv]
  simpa using he

end

end ExpMap
