import Mathlib.Data.List.Dedup
import Mathlib.Data.List.Perm.Subperm

/-!
# Lists that grow by what is new

* `addedKeys`       the keys that are there once more keys are added, each in its first place;
* `mem_addedKeys`, `addedKeys_nodup`, `length_addedKeys`  what is there;
* `filter_addedKeys`  picking some keys before or after is the same.
-/

set_option linter.unusedVariables false

section
variable {κ : Type} [DecidableEq κ]

/-- the stored keys `l`, then those of `ks` that are new -/
def addedKeys (l : List κ) : List κ → List κ
  | [] => l
  | k :: ks => addedKeys (if k ∈ l then l else l ++ [k]) ks

variable {l ks : List κ}

theorem mem_addedKeys {k : κ} : ∀ {ks l : List κ}, k ∈ addedKeys l ks ↔ k ∈ l ∨ k ∈ ks
  | [], l => by simp [addedKeys]
  | k' :: ks, l => by
    rw [addedKeys, mem_addedKeys, List.mem_cons]
    by_cases h : k' ∈ l
    · rw [if_pos h]
      constructor
      · exact fun h' => h'.imp_right .inr
      · rintro (h' | rfl | h')
        · exact .inl h'
        · exact .inl h
        · exact .inr h'
    · rw [if_neg h, List.mem_append, List.mem_singleton, or_assoc]

/-- the stored keys keep their places -/
theorem addedKeys_prefix : ∀ ks l : List κ, l <+: addedKeys l ks
  | [], l => List.prefix_refl l
  | k :: ks, l => by
    have ih := addedKeys_prefix ks (if k ∈ l then l else l ++ [k])
    unfold addedKeys
    by_cases h : k ∈ l
    · rwa [if_pos h] at ih ⊢
    · rw [if_neg h] at ih ⊢
      exact (List.prefix_append l [k]).trans ih

theorem addedKeys_nodup : ∀ {ks l : List κ}, l.Nodup → (addedKeys l ks).Nodup
  | [], l, h => h
  | k :: ks, l, h => by
    rw [addedKeys]
    refine addedKeys_nodup ?_
    split
    · exact h
    · rename_i hk
      exact List.nodup_append.mpr ⟨h, List.nodup_singleton k, fun x hx y hy => by
        rw [List.mem_singleton.mp hy]
        exact fun he => hk (he ▸ hx)⟩

theorem addedKeys_append : ∀ ks ks' l : List κ,
    addedKeys l (ks ++ ks') = addedKeys (addedKeys l ks) ks'
  | [], _, _ => rfl
  | k :: ks, ks', l => addedKeys_append ks ks' _

/-- **picking keys before they are added, or after** -/
theorem filter_addedKeys (p : κ → Bool) : ∀ ks l : List κ,
    (addedKeys l ks).filter p = addedKeys (l.filter p) (ks.filter p)
  | [], _ => rfl
  | k :: ks, l => by
    rw [addedKeys, filter_addedKeys p ks, List.filter_cons]
    by_cases hp : p k = true
    · rw [if_pos hp, addedKeys]
      by_cases hk : k ∈ l
      · rw [if_pos hk, if_pos (List.mem_filter.mpr ⟨hk, hp⟩)]
      · rw [if_neg hk, if_neg fun h => hk (List.mem_filter.mp h).1, List.filter_append,
          List.filter_cons_of_pos hp, List.filter_nil]
    · rw [if_neg hp]
      split
      · rfl
      · rw [List.filter_append, List.filter_cons_of_neg hp, List.filter_nil, List.append_nil]

/-- the new keys are among those of the call -/
theorem length_addedKeys (h : l.Nodup) : (addedKeys l ks).length ≤ l.length + ks.dedup.length := by
  have hsub : addedKeys l ks ⊆ l ++ ks.dedup := fun k hk =>
    List.mem_append.mpr ((mem_addedKeys.mp hk).imp_right List.mem_dedup.mpr)
  have hle := ((addedKeys_nodup h).subperm hsub).length_le
  rwa [List.length_append] at hle

end
