import Mathlib.Data.List.Dedup
import Mathlib.Data.List.Lattice
import SecAudit.Data.Dict

/-!
# Dictionaries that drop their least recently used keys

* `Mark`            what happens to a key: it is touched, and then holds a value, or it is deleted;
* `recency`         the keys that were touched, in order of their last touch;
* `Lru`             a dictionary after some marks: no larger than `cap`, in the order of the
                    touches, and without a live value only where `cap` keys were touched since;
* `Lru.sweep`, `Lru.drop`, `Lru.delete`, `Lru.touch`  what keeps it so.
-/

set_option linter.unusedVariables false
set_option linter.unusedSectionVars false

/-! ## lists -/

namespace List

section
variable {α : Type}

/-- where a list ends in one more entry, a place in it is the last one or an earlier one -/
theorem concat_eq_append_cons {l pre post : List α} {a b : α} (h : l ++ [a] = pre ++ b :: post) :
    (post = [] ∧ b = a) ∨ ∃ post', post = post' ++ [a] ∧ l = pre ++ b :: post' := by
  rcases eq_nil_or_concat' post with rfl | ⟨post', c, rfl⟩
  · exact .inl ⟨rfl, (singleton_inj.mp (append_inj' h rfl).2).symm⟩
  · rw [← cons_append, ← append_assoc] at h
    obtain ⟨hl, hc⟩ := append_inj' h rfl
    exact .inr ⟨post', by rw [singleton_inj.mp hc], hl⟩

/-- what comes after an entry in a sublist comes after it -/
theorem Sublist.after {k : α} {C B : List α} : ∀ {A : List α}, (A ++ k :: B).Nodup →
    k :: C <+ A ++ k :: B → C <+ B
  | [], _, h => cons_sublist_cons.mp h
  | a :: A, hn, h => by
    rw [cons_append, nodup_cons] at hn
    cases h with
    | cons _ h => exact h.after hn.2
    | cons_cons _ h => exact absurd (mem_append_right A mem_cons_self) hn.1

variable [DecidableEq α]

theorem dedup_concat (l : List α) (k : α) :
    (l ++ [k]).dedup = (l.dedup.filter fun x => decide (x ≠ k)) ++ [k] := by
  induction l with
  | nil => rfl
  | cons a l ih =>
    rw [cons_append]
    by_cases ha : a ∈ l
    · rw [dedup_cons_of_mem (mem_append_left _ ha), dedup_cons_of_mem ha, ih]
    · rw [dedup_cons_of_notMem ha]
      by_cases hk : a = k
      · subst hk
        rw [dedup_cons_of_mem (mem_append_right _ mem_cons_self), ih,
          filter_cons_of_neg (by simp)]
      · have hmem : a ∉ l ++ [k] := by
          rw [mem_append, mem_singleton]
          exact not_or.mpr ⟨ha, hk⟩
        rw [dedup_cons_of_notMem hmem, ih, filter_cons_of_pos (by simpa using hk)]
        rfl

end

end List

/-! ## marks -/

inductive Mark (κ ν : Type) where
  | touched (k : κ) (v : ν)
  | deleted (k : κ)

section
variable {κ ν : Type}

def Mark.key : Mark κ ν → κ
  | .touched k _ => k
  | .deleted k => k

def touchedKeys : List (Mark κ ν) → List κ
  | [] => []
  | .touched k _ :: l => k :: touchedKeys l
  | .deleted _ :: l => touchedKeys l

theorem touchedKeys_append : ∀ l m : List (Mark κ ν),
    touchedKeys (l ++ m) = touchedKeys l ++ touchedKeys m
  | [], _ => rfl
  | .touched k _ :: l, m => congrArg (k :: ·) (touchedKeys_append l m)
  | .deleted _ :: l, m => touchedKeys_append l m

theorem touchedKeys_subset : ∀ l : List (Mark κ ν), touchedKeys l ⊆ l.map Mark.key
  | [] => List.nil_subset _
  | .touched k _ :: l => List.cons_subset_cons k (touchedKeys_subset l)
  | .deleted k :: l => List.subset_cons_of_subset k (touchedKeys_subset l)

variable [DecidableEq κ]

/-- the keys by their last touch -/
def recency (marks : List (Mark κ ν)) : List κ := (touchedKeys marks).dedup

theorem recency_deleted (marks : List (Mark κ ν)) (k : κ) :
    recency (marks ++ [.deleted k]) = recency marks := by
  unfold recency
  rw [touchedKeys_append]
  exact congrArg List.dedup (List.append_nil _)

theorem recency_touched (marks : List (Mark κ ν)) (k : κ) (v : ν) :
    recency (marks ++ [.touched k v]) = ((recency marks).filter fun x => decide (x ≠ k)) ++ [k] := by
  unfold recency
  rw [touchedKeys_append]
  exact List.dedup_concat _ k

theorem length_recency_concat (marks : List (Mark κ ν)) (m : Mark κ ν) :
    (recency marks).length ≤ (recency (marks ++ [m])).length := by
  unfold recency
  refine ((List.nodup_dedup _).subperm fun k hk => ?_).length_le
  rw [touchedKeys_append]
  exact List.mem_dedup.mpr (List.mem_append_left _ (List.mem_dedup.mp hk))

/-- a touched key, then those touched after it -/
theorem recency_suffix {pre post : List (Mark κ ν)} {k : κ} {v : ν} (h : k ∉ post.map Mark.key) :
    k :: recency post <:+ recency (pre ++ .touched k v :: post) := by
  unfold recency
  rw [touchedKeys_append, List.dedup_append]
  show k :: (touchedKeys post).dedup <:+ touchedKeys pre ∪ (k :: touchedKeys post).dedup
  rw [List.dedup_cons_of_notMem fun hk => h (touchedKeys_subset post hk)]
  exact List.suffix_union_right _ _

/-! ## the dictionary -/

/-- after `marks`, the dictionary has no more than `cap` keys, ordered by their last touch; what a
key held when it was last touched, if it lives and was not deleted, is there until `cap` keys were
touched since -/
structure Lru (cap : Nat) (live : ν → Prop) (marks : List (Mark κ ν)) (d : Dict κ ν) : Prop where
  size : d.size ≤ cap
  order : d.keys.Sublist (recency marks)
  kept : ∀ pre k v post, marks = pre ++ .touched k v :: post → k ∉ post.map Mark.key → live v →
    d.get k = some v ∨ cap ≤ (recency post).length

namespace Lru

variable {cap : Nat} {live : ν → Prop} {marks : List (Mark κ ν)} {d : Dict κ ν}

theorem empty (cap : Nat) (live : ν → Prop) : Lru cap live [] (.empty : Dict κ ν) where
  size := Nat.zero_le _
  order := List.nil_sublist _
  kept := fun pre k v post h => by simp at h

/-- what lives later lives now -/
theorem mono {live' : ν → Prop} (h : Lru cap live marks d) (hl : ∀ v, live' v → live v) :
    Lru cap live' marks d :=
  ⟨h.size, h.order, fun pre k v post he hk hv => h.kept pre k v post he hk (hl v hv)⟩

/-- **a sweep that keeps what lives** -/
theorem sweep (h : Lru cap live marks d) {p : κ → ν → Bool} (hp : ∀ k v, live v → p k v = true) :
    Lru cap live marks (d.keep p) where
  size := Nat.le_trans (List.length_filter_le ..) h.size
  order := (List.filter_sublist.map Prod.fst).trans h.order
  kept := fun pre k v post he hk hv => (h.kept pre k v post he hk hv).imp_left fun hget => by
    rw [Dict.get_keep, hget]
    exact if_pos (hp k v hv)

/-- a key that does not live is dropped -/
theorem drop (h : Lru cap live marks d) {k : κ} (hk : ∀ v, d.get k = some v → ¬ live v) :
    Lru cap live marks (d.pop k) where
  size := Nat.le_trans (List.length_filter_le ..) h.size
  order := (List.filter_sublist.map Prod.fst).trans h.order
  kept := fun pre k' v post he hpost hv =>
    (h.kept pre k' v post he hpost hv).imp_left fun hget => by
      have hne : k' ≠ k := by
        rintro rfl
        exact hk v hget hv
      rw [Dict.get_pop, if_neg hne, hget]

/-- **a deletion** -/
theorem delete (h : Lru cap live marks d) (k : κ) :
    Lru cap live (marks ++ [.deleted k]) (d.pop k) where
  size := Nat.le_trans (List.length_filter_le ..) h.size
  order := by
    rw [recency_deleted]
    exact (List.filter_sublist.map Prod.fst).trans h.order
  kept := fun pre k' v post he hk hv => by
    obtain ⟨rfl, hm⟩ | ⟨post', rfl, rfl⟩ := List.concat_eq_append_cons he
    · cases hm
    · rw [List.map_append, List.mem_append, not_or] at hk
      have hne : k' ≠ k := fun hk' => hk.2 (List.mem_singleton.mpr hk')
      rw [recency_deleted, Dict.get_pop, if_neg hne]
      exact h.kept pre k' v post' rfl hk.1 hv

theorem keys_setLast_eq (k : κ) (v : ν) (d : Dict κ ν) :
    (d.setLast k v).keys = (d.keys.filter fun x => decide (x ≠ k)) ++ [k] := by
  show ((d.items.filter fun e => decide (e.1 ≠ k)) ++ [(k, v)]).map Prod.fst = _
  rw [List.map_append]
  unfold Dict.keys
  rw [List.filter_map]
  rfl

/-- at most one key must go when one is touched -/
theorem excess_le (h : d.size ≤ cap) (k : κ) (v : ν) : (d.setLast k v).size - cap ≤ 1 := by
  rw [Dict.size_eq, keys_setLast_eq, List.length_append, List.length_singleton]
  have hf := List.length_filter_le (fun x => decide (x ≠ k)) d.keys
  rw [Dict.size_eq] at h
  omega

/-- a key that was just touched is there -/
theorem get_touched (hcap : 1 ≤ cap) (k : κ) (v : ν) (d : Dict κ ν) :
    ((d.setLast k v).dropFirst ((d.setLast k v).size - cap)).get k = some v := by
  rw [Dict.get_dropFirst, Dict.get_setLast, if_pos rfl, if_neg]
  rw [Dict.size_eq, keys_setLast_eq, List.length_append, List.length_singleton,
    List.take_append_of_le_length (by omega)]
  intro hk
  exact of_decide_eq_true (List.mem_filter.mp (List.mem_of_mem_take hk)).2 rfl

theorem order_touched (h : Lru cap live marks d) (k : κ) (v : ν) :
    (d.setLast k v).keys.Sublist (recency (marks ++ [.touched k v])) := by
  rw [keys_setLast_eq, recency_touched]
  exact (h.order.filter _).append (List.Sublist.refl [k])

/-- **a touch, and the removal of the oldest keys** -/
theorem touch (hcap : 1 ≤ cap) (h : Lru cap live marks d) (k : κ) (v : ν) :
    Lru cap live (marks ++ [.touched k v])
      ((d.setLast k v).dropFirst ((d.setLast k v).size - cap)) where
  size := by
    rw [Dict.size_eq, Dict.keys_dropFirst, List.length_drop, Dict.size_eq]
    omega
  order := by
    rw [Dict.keys_dropFirst]
    exact (List.drop_sublist _ _).trans (h.order_touched k v)
  kept := fun pre k' v' post he hk hv => by
    have hstands := h.order_touched k v
    obtain ⟨rfl, hm⟩ | ⟨post', rfl, rfl⟩ := List.concat_eq_append_cons he
    · cases hm
      exact .inl (get_touched hcap _ _ d)
    · have hk' := hk
      rw [List.map_append, List.mem_append, not_or] at hk'
      have hne : k' ≠ k := fun e => hk'.2 (List.mem_singleton.mpr e)
      refine (h.kept pre k' v' post' rfl hk'.1 hv).elim (fun hget => ?_) fun hlen =>
        .inr (Nat.le_trans hlen (length_recency_concat post' _))
      rw [Dict.get_dropFirst, Dict.get_setLast, if_neg hne, hget]
      split
      · -- the key goes: it is the oldest one, and `cap` keys stand behind it
        rename_i hgone
        refine .inr ?_
        obtain ⟨rest, hrest⟩ : ∃ rest, (d.setLast k v).keys = k' :: rest := by
          rcases hkeys : (d.setLast k v).keys with _ | ⟨head, rest⟩
          · rw [hkeys, List.take_nil] at hgone
            cases hgone
          · rw [hkeys] at hgone
            have hone := List.take_subset_take_left (head :: rest) (excess_le h.size k v) hgone
            exact ⟨rest, by rw [List.mem_singleton.mp hone]⟩
        have hlen : (d.setLast k v).size - cap ≠ 0 := fun h0 => by
          rw [h0] at hgone
          cases hgone
        have hcapr : cap ≤ rest.length := by
          rw [Dict.size_eq, hrest, List.length_cons] at hlen
          omega
        rw [List.append_assoc, List.cons_append] at hstands
        obtain ⟨A, hA⟩ := @recency_suffix _ _ _ pre (post' ++ [.touched k v]) k' v' hk
        rw [hrest, ← hA] at hstands
        have hnodup : (A ++ k' :: recency (post' ++ [.touched k v])).Nodup := by
          rw [hA]
          exact List.nodup_dedup _
        exact Nat.le_trans hcapr (hstands.after hnodup).length_le
      · exact .inl rfl

/-- a touch of a key that is there -/
theorem touch_stored (hcap : 1 ≤ cap) (h : Lru cap live marks d) {k : κ} (v : ν)
    (hk : k ∈ d.keys) : Lru cap live (marks ++ [.touched k v]) (d.setLast k v) := by
  have hsize : (d.setLast k v).size = d.size := by
    have hpos := List.length_pos_of_mem hk
    have hn : d.keys.Nodup := d.nodup
    have hf : (d.keys.filter fun x => decide (x ≠ k)) = d.keys.erase k := by
      rw [hn.erase_eq_filter]
      exact List.filter_congr fun x _ => by simp [bne, beq_eq_decide]
    rw [Dict.size_eq, keys_setLast_eq, List.length_append, List.length_singleton, hf,
      List.length_erase_of_mem hk, Dict.size_eq]
    omega
  have ht := h.touch hcap k v
  rwa [hsize, Nat.sub_eq_zero_of_le h.size, Dict.dropFirst_zero] at ht

end Lru

end
