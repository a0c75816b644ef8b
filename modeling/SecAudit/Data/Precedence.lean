import SecAudit.Data.Added

/-!
# Lists in an order of preference

* `reorder f ks l`  the items of `l` with the names `ks`, in the order of these, then the others;
* `reorder_perm`    it is a rearrangement of `l`;
* `preferred`, `names_reorder`  the order of the names;
* `addedKeys_eq`    what is added to a list of keys;
* `isSome_findSome` finding something does not depend on the order.
-/

set_option linter.unusedVariables false
set_option linter.unusedSectionVars false

section
variable {α κ : Type} [DecidableEq κ] {f : α → κ}

/-- the items with the names `ks` first, in the order of these -/
def reorder (f : α → κ) : List κ → List α → List α
  | [], l => l
  | k :: ks, l => match l.find? fun a => decide (f a = k) with
    | some a => a :: reorder f ks (l.filter fun a => decide (f a ≠ k))
    | none => reorder f ks l

/-- the item of a name, and the others -/
theorem perm_cons_filter {a : α} : ∀ {l : List α}, (l.map f).Nodup → a ∈ l →
    (a :: l.filter fun x => decide (f x ≠ f a)).Perm l
  | x :: l, hnd, ha => by
    obtain ⟨hx, hnd⟩ := List.nodup_cons.mp hnd
    rcases List.mem_cons.mp ha with rfl | ha
    · have hkeep : l.filter (fun x => decide (f x ≠ f a)) = l :=
        List.filter_eq_self.mpr fun y hy => decide_eq_true fun e =>
          hx (List.mem_map.mpr ⟨y, hy, e⟩)
      rw [List.filter_cons_of_neg (by simp), hkeep]
    · have hne : f x ≠ f a := fun e => hx (e ▸ List.mem_map_of_mem ha)
      rw [List.filter_cons, if_pos (decide_eq_true hne)]
      exact (List.Perm.swap x a _).trans ((perm_cons_filter hnd ha).cons x)

theorem nodup_filter {l : List α} (p : α → Bool) (h : (l.map f).Nodup) :
    ((l.filter p).map f).Nodup :=
  (List.filter_sublist.map f).nodup h

/-- **nothing is lost or added** -/
theorem reorder_perm : ∀ {ks : List κ} {l : List α}, (l.map f).Nodup → (reorder f ks l).Perm l
  | [], l, _ => List.Perm.refl l
  | k :: ks, l, hnd => by
    unfold reorder
    split
    · rename_i a ha
      have hk := List.find?_some ha
      rw [decide_eq_true_eq] at hk
      subst hk
      exact ((reorder_perm (nodup_filter _ hnd)).cons a).trans
        (perm_cons_filter hnd (List.mem_of_find?_eq_some ha))
    · exact reorder_perm hnd

theorem addedKeys_eq : ∀ (ks l : List κ),
    addedKeys l ks = l ++ (addedKeys [] ks).filter fun k => decide (k ∉ l)
  | [], l => (List.append_nil l).symm
  | k :: ks, l => by
    have hnil : addedKeys [] (k :: ks) = k :: (addedKeys [] ks).filter fun x => decide (x ∉ [k]) :=
      addedKeys_eq ks [k]
    rw [hnil]
    show addedKeys (if k ∈ l then l else l ++ [k]) ks = _
    by_cases hk : k ∈ l
    · rw [if_pos hk, addedKeys_eq ks l, List.filter_cons_of_neg (by simpa using hk),
        List.filter_filter]
      congr 1
      refine List.filter_congr fun x _ => ?_
      by_cases hx : x ∈ l
      · simp [hx]
      · have : x ≠ k := fun e => hx (e ▸ hk)
        simp [hx, this]
    · rw [if_neg hk, addedKeys_eq ks (l ++ [k]), List.filter_cons_of_pos (by simpa using hk),
        List.filter_filter, List.append_assoc]
      show l ++ k :: _ = l ++ k :: _
      congr 2
      refine List.filter_congr fun x _ => ?_
      simp [not_or]

/-- the names that are preferred, each where it is given first, then the others in their own order -/
def preferred (ks names : List κ) : List κ :=
  ((addedKeys [] ks).filter fun k => decide (k ∈ names)) ++ names.filter fun k => decide (k ∉ ks)

/-- **the order of the names** -/
theorem names_reorder : ∀ {ks : List κ} {l : List α}, (l.map f).Nodup →
    (reorder f ks l).map f = preferred ks (l.map f)
  | [], l, _ => by
    unfold preferred
    rw [List.filter_eq_self.mpr fun k _ => decide_eq_true List.not_mem_nil]
    rfl
  | k :: ks, l, hnd => by
    have hnil : addedKeys [] (k :: ks) = k :: (addedKeys [] ks).filter fun x => decide (x ∉ [k]) :=
      addedKeys_eq ks [k]
    unfold reorder preferred
    rw [hnil]
    split
    · rename_i a ha
      have hk := List.find?_some ha
      rw [decide_eq_true_eq] at hk
      subst hk
      have hmem : f a ∈ l.map f := List.mem_map_of_mem (List.mem_of_find?_eq_some ha)
      have hnames : (l.filter fun x => decide (f x ≠ f a)).map f
          = (l.map f).filter fun k => decide (k ≠ f a) := by
        rw [List.filter_map]
        rfl
      rw [List.map_cons, names_reorder (nodup_filter _ hnd), preferred, hnames,
        List.filter_cons, if_pos (decide_eq_true hmem), List.filter_filter, List.filter_filter]
      show f a :: (_ ++ _) = f a :: (_ ++ _)
      congr 2
      · refine List.filter_congr fun x _ => ?_
        by_cases hx : x = f a <;> simp [hx]
      · refine List.filter_congr fun x _ => ?_
        by_cases hx : x = f a <;> simp [hx]
    · rename_i hnone
      have hk : k ∉ l.map f := fun h => by
        obtain ⟨a, ha, e⟩ := List.mem_map.mp h
        have := List.find?_eq_none.mp hnone a ha
        simp [e] at this
      rw [names_reorder hnd, preferred, List.filter_cons_of_neg (by simpa using hk), List.filter_filter]
      congr 1
      · refine List.filter_congr fun x _ => ?_
        by_cases hx : x ∈ l.map f
        · have : x ≠ k := fun e => hk (e ▸ hx)
          simp [this]
        · simp only [hx, decide_false, Bool.false_and]
      · refine List.filter_congr fun x hx => ?_
        have : x ≠ k := fun e => hk (e ▸ hx)
        simp [this]

end

/-- **something is found or not** whatever the order -/
theorem isSome_findSome {α β : Type} {f : α → Option β} {l l' : List α} (h : ∀ a, a ∈ l ↔ a ∈ l') :
    (l.findSome? f).isSome = (l'.findSome? f).isSome := by
  rw [Bool.eq_iff_iff, List.findSome?_isSome_iff, List.findSome?_isSome_iff]
  exact exists_congr fun a => and_congr_left fun _ => h a
