import Mathlib.Data.List.Sort

/-!
# The first entries of sorted lists together

Lists that are each in order, the first of them going first among equals, are sorted together.

* `take_orderedInsert`  where an entry goes among the first `n` depends on the first `n`;
* `foldr_orderedInsert_middle`  entries that go before one push it back;
* `take_insertionSort_flatMap`  only the first `n` entries of each list are among the first
                    `n` of all;
* `nodup_take_insertionSort_iff`  nothing is twice among the first `n` of all.
-/

set_option linter.unusedVariables false

namespace List

section
variable {α : Type} {r : α → α → Prop} [DecidableRel r]

theorem take_orderedInsert (a : α) : ∀ (s : List α) (n : Nat),
    (s.orderedInsert r a).take n = ((s.take n).orderedInsert r a).take n
  | s, 0 => rfl
  | [], n + 1 => rfl
  | b :: s, n + 1 => by
    rw [take_succ_cons, orderedInsert_cons, orderedInsert_cons]
    by_cases h : r a b
    · rw [if_pos h, if_pos h, take_succ_cons, take_succ_cons]
      congr 1
      cases n with
      | zero => rfl
      | succ n => rw [take_succ_cons, take_succ_cons, take_take, Nat.min_eq_left (Nat.le_succ n)]
    · rw [if_neg h, if_neg h, take_succ_cons, take_succ_cons, take_orderedInsert a s n]

/-- what is put in front of lists that agree on the first `n` keeps them so -/
theorem take_foldr_orderedInsert {s t : List α} {n : Nat} (h : s.take n = t.take n) :
    ∀ k : List α, (k.foldr (orderedInsert r) s).take n = (k.foldr (orderedInsert r) t).take n
  | [] => h
  | a :: k => by
    rw [foldr_cons, foldr_cons, take_orderedInsert, take_foldr_orderedInsert h k,
      ← take_orderedInsert]

/-- an entry that goes before `x` goes to the same place with `x` and without -/
theorem orderedInsert_middle {a x : α} {v : List α} (trans : ∀ a b c, r a b → r b c → r a c)
    (ha : r a x) (hv : ∀ b ∈ v.head?, r x b) : ∀ u : List α,
    ∃ u', u'.length = u.length + 1 ∧ (u ++ v).orderedInsert r a = u' ++ v ∧
      (u ++ x :: v).orderedInsert r a = u' ++ x :: v
  | [] => by
    refine ⟨[a], rfl, ?_, ?_⟩
    · cases v with
      | nil => rfl
      | cons b v => exact orderedInsert_cons_of_le r v (trans a x b ha (hv b rfl))
    · exact orderedInsert_cons_of_le r v ha
  | b :: u => by
    by_cases h : r a b
    · exact ⟨a :: b :: u, rfl, orderedInsert_cons_of_le r _ h, orderedInsert_cons_of_le r _ h⟩
    · obtain ⟨u', hlen, h1, h2⟩ := orderedInsert_middle trans ha hv u
      refine ⟨b :: u', congrArg Nat.succ hlen, ?_, ?_⟩
      · rw [cons_append, orderedInsert_of_not_le r _ h, h1, cons_append]
      · rw [cons_append, orderedInsert_of_not_le r _ h, h2, cons_append]

/-- **entries that go before one push it back** -/
theorem foldr_orderedInsert_middle {x : α} {v : List α}
    (trans : ∀ a b c, r a b → r b c → r a c) (hv : ∀ b ∈ v.head?, r x b) (u : List α) :
    ∀ k : List α, (∀ a ∈ k, r a x) → ∃ u', u'.length = u.length + k.length ∧
      k.foldr (orderedInsert r) (u ++ v) = u' ++ v ∧
      k.foldr (orderedInsert r) (u ++ x :: v) = u' ++ x :: v
  | [], _ => ⟨u, rfl, rfl, rfl⟩
  | a :: k, h => by
    rw [forall_mem_cons] at h
    obtain ⟨u₁, hlen₁, h1, h2⟩ := foldr_orderedInsert_middle trans hv u k h.2
    obtain ⟨u', hlen, h1', h2'⟩ := orderedInsert_middle trans h.1 hv u₁
    refine ⟨u', ?_, ?_, ?_⟩
    · rw [hlen, hlen₁, length_cons, Nat.add_assoc]
    · rw [foldr_cons, h1, h1']
    · rw [foldr_cons, h2, h2']

/-- an entry with the entries of `k` before it is not among the first of them -/
theorem take_foldr_insert {x : α} {s k : List α} (trans : ∀ a b c, r a b → r b c → r a c)
    (hk : ∀ a ∈ k, r a x) :
    (k.foldr (orderedInsert r) (s.orderedInsert r x)).take k.length
      = (k.foldr (orderedInsert r) s).take k.length := by
  have hsplit : s = (s.takeWhile fun b => ¬ r x b) ++ s.dropWhile fun b => ¬ r x b :=
    takeWhile_append_dropWhile.symm
  have hhead : ∀ b ∈ (s.dropWhile fun b => ¬ r x b).head?, r x b := by
    intro b hb
    have hne := head?_dropWhile_not (fun b => decide (¬ r x b)) s
    rw [hb] at hne
    simpa using hne
  obtain ⟨u', hlen, h1, h2⟩ :=
    foldr_orderedInsert_middle trans hhead (s.takeWhile fun b => ¬ r x b) k hk
  have hle : k.length ≤ u'.length := by omega
  rw [orderedInsert_eq_take_drop, h2]
  conv_rhs => rw [hsplit, h1]
  rw [take_append_of_le_length hle, take_append_of_le_length hle]

/-- nor are any that go after all of `k` -/
theorem take_foldr_append {s k : List α} (trans : ∀ a b c, r a b → r b c → r a c) :
    ∀ l : List α, (∀ a ∈ k, ∀ x ∈ l, r a x) →
    ((k ++ l).foldr (orderedInsert r) s).take k.length
      = (k.foldr (orderedInsert r) s).take k.length
  | [], _ => by rw [append_nil]
  | x :: l, h => by
    rw [foldr_append, foldr_cons, take_foldr_insert trans fun a ha => h a ha x mem_cons_self,
      ← foldr_append]
    exact take_foldr_append trans l fun a ha y hy => h a ha y (mem_cons_of_mem x hy)

/-- of a list that is in order only the first `n` entries are among the first `n` -/
theorem take_foldr_take {s k : List α} (trans : ∀ a b c, r a b → r b c → r a c)
    (hk : k.Pairwise r) (n : Nat) :
    (k.foldr (orderedInsert r) s).take n = ((k.take n).foldr (orderedInsert r) s).take n := by
  by_cases hn : k.length ≤ n
  · rw [take_of_length_le hn]
  · have hlen : (k.take n).length = n := by
      rw [length_take]
      omega
    have hsplit := take_append_drop n k
    have h := @take_foldr_append _ r _ s (k.take n) trans (k.drop n) (by
      rw [← hsplit, pairwise_append] at hk
      exact hk.2.2)
    rwa [hlen, hsplit] at h

/-- **only the first `n` entries of each list are among the first `n` of all** -/
theorem take_insertionSort_flatMap (trans : ∀ a b c, r a b → r b c → r a c) (n : Nat) :
    ∀ ls : List (List α), (∀ k ∈ ls, k.Pairwise r) →
    ((ls.flatMap fun k => k.take n).insertionSort r).take n
      = (ls.flatten.insertionSort r).take n
  | [], _ => rfl
  | k :: ls, h => by
    rw [forall_mem_cons] at h
    have ih := take_insertionSort_flatMap trans n ls h.2
    unfold insertionSort at ih ⊢
    rw [flatMap_cons, flatten_cons, foldr_append, foldr_append, take_foldr_take trans h.1,
      take_foldr_orderedInsert ih]

end

/-! ## entries that are there more than once -/

section
variable {α β : Type} {r : α → α → Prop} [DecidableRel r]

/-- entries that go either way stay in their order -/
theorem filter_insertionSort {p : α → Bool} (hp : ∀ a b, p a = true → p b = true → r a b)
    (l : List α) : (l.insertionSort r).filter p = l.filter p := by
  have hpair : (l.filter p).Pairwise r :=
    pairwise_of_forall_mem_list fun a ha b hb => hp a b (of_mem_filter ha) (of_mem_filter hb)
  have hsub := (sublist_insertionSort hpair filter_sublist).filter p
  rw [filter_filter, funext fun a => Bool.and_self (p a)] at hsub
  exact (hsub.eq_of_length ((perm_insertionSort r l).filter p).length_eq.symm).symm

/-- lists with the same entries of a kind are split alike at one of them -/
theorem split_of_filter_eq {p : α → Bool} {l l' u v : List α} {y : α}
    (h : l.filter p = l'.filter p) (hy : p y = true) (hl : l = u ++ y :: v) :
    ∃ u' v', l' = u' ++ y :: v' ∧ u'.filter p = u.filter p := by
  rw [hl, filter_append, filter_cons_of_pos hy, eq_comm, filter_eq_append_iff] at h
  obtain ⟨l₁, l₂, rfl, h₁, h₂⟩ := h
  obtain ⟨m₁, m₂, rfl, hm, -, -⟩ := filter_eq_cons_iff.mp h₂
  refine ⟨l₁ ++ m₁, m₂, (append_assoc _ _ _).symm, ?_⟩
  rw [filter_append, h₁, filter_eq_nil_iff.mpr hm, append_nil]

/-- a list has no entry twice among its first `n` when none comes back that early -/
theorem nodup_map_take_iff (f : α → β) {l : List α} : ∀ n : Nat,
    ((l.take n).map f).Nodup ↔ ∀ a y b, l = a ++ y :: b → f y ∈ a.map f → n ≤ a.length
  | 0 => by simp
  | n + 1 => by
    by_cases h : n < l.length
    · have hsplit : l = l.take n ++ l[n] :: l.drop (n + 1) := by
        rw [← drop_eq_getElem_cons h, take_append_drop]
      have hlen : (l.take n).length = n := length_take_of_le h.le
      rw [take_succ_eq_append_getElem h, map_append, nodup_append', nodup_map_take_iff f n]
      constructor
      · rintro ⟨ih, -, hd⟩ a y b hab hy
        refine Nat.lt_of_le_of_ne (ih a y b hab hy) fun hn => ?_
        obtain ⟨rfl, hyb⟩ := append_inj (hab.symm.trans hsplit) (hn.symm.trans hlen.symm)
        injection hyb with hyl
        exact hd hy (by rw [hyl]; exact mem_singleton_self _)
      · intro hall
        refine ⟨fun a y b hab hy => (Nat.le_succ n).trans (hall a y b hab hy),
          nodup_singleton _, fun x hx hx' => ?_⟩
        rw [mem_singleton.mp hx'] at hx
        have := hall _ _ _ hsplit hx
        omega
    · rw [take_of_length_le (by omega)]
      have ih := nodup_map_take_iff f (l := l) n
      rw [take_of_length_le (by omega)] at ih
      rw [ih]
      constructor
      · intro hall a y b hab hy
        have h1 := hall a y b hab hy
        have h2 := congrArg length hab
        rw [length_append, length_cons] at h2
        omega
      · exact fun hall a y b hab hy => (Nat.le_succ n).trans (hall a y b hab hy)

/-- before an entry are those that go before it alone, and those of the others that stand there -/
theorem length_of_pairwise [Std.Total r] {a b : List α} {y : α} (h : (a ++ y :: b).Pairwise r) :
    a.length = (a ++ y :: b).countP (fun x => ¬ r y x)
      + a.countP fun x => decide (r x y ∧ r y x) := by
  obtain ⟨-, hb, hab⟩ := pairwise_append.mp h
  have hback : (y :: b).countP (fun x => ¬ r y x) = 0 := by
    rw [countP_eq_zero]
    rintro x hx hne
    refine of_decide_eq_true hne ?_
    rcases mem_cons.mp hx with rfl | hx
    · exact (Std.Total.total (r := r) x x).elim id id
    · exact (pairwise_cons.mp hb).1 x hx
  have hfront : a.countP (fun x => decide (r x y ∧ r y x))
      = a.countP fun x => ¬ (decide ¬ r y x) = true := by
    refine countP_congr fun x hx => ?_
    have hxy := hab x hx y mem_cons_self
    simp [hxy]
  rw [countP_append, hback, Nat.add_zero, hfront]
  exact length_eq_countP_add_countP _

/-- **the first `n` of all hold nothing twice when whatever comes back has `n` entries to go
before it**: those that go before it alone, and those of the others that stand before it -/
theorem nodup_take_insertionSort_iff [Std.Total r] [IsTrans α r] (f : α → β) {l : List α} (n : Nat)
    (hf : ∀ x ∈ l, ∀ y ∈ l, f x = f y → r x y) :
    (((l.insertionSort r).take n).map f).Nodup ↔
      ∀ u y v, l = u ++ y :: v → f y ∈ u.map f →
        n ≤ l.countP (fun x => ¬ r y x) + u.countP fun x => decide (r x y ∧ r y x) := by
  have hrefl : ∀ x, r x x := fun x => (Std.Total.total (r := r) x x).elim id id
  have hfilter : ∀ y, (l.insertionSort r).filter (fun x => decide (r x y ∧ r y x))
      = l.filter fun x => decide (r x y ∧ r y x) := fun y =>
    filter_insertionSort (fun a b ha hb => IsTrans.trans a y b (of_decide_eq_true ha).1
      (of_decide_eq_true hb).2) l
  have hcount : ∀ y, (l.insertionSort r).countP (fun x => ¬ r y x)
      = l.countP fun x => ¬ r y x := fun y => (perm_insertionSort r l).countP_eq _
  have hself : ∀ y, (decide (r y y ∧ r y y)) = true := fun y =>
    decide_eq_true ⟨hrefl y, hrefl y⟩
  have hback : ∀ {a a' : List α} {y : α}, (∀ x ∈ a, x ∈ l) → y ∈ l →
      a'.filter (fun x => decide (r x y ∧ r y x)) = a.filter (fun x => decide (r x y ∧ r y x)) →
      f y ∈ a.map f → f y ∈ a'.map f := by
    intro a a' y ha hy h hm
    obtain ⟨x, hx, hxy⟩ := mem_map.mp hm
    have hmem : x ∈ a.filter fun x => decide (r x y ∧ r y x) := mem_filter.mpr
      ⟨hx, decide_eq_true ⟨hf x (ha x hx) y hy hxy, hf y hy x (ha x hx) hxy.symm⟩⟩
    rw [← h] at hmem
    exact mem_map.mpr ⟨x, mem_of_mem_filter hmem, hxy⟩
  rw [nodup_map_take_iff]
  constructor
  · intro hall u y v hl hy
    obtain ⟨a, b, hab, ha⟩ := split_of_filter_eq (hfilter y).symm (hself y) hl
    have hlen := length_of_pairwise (hab ▸ pairwise_insertionSort r l)
    rw [← hab, hcount, countP_eq_length_filter (l := a), ha, ← countP_eq_length_filter] at hlen
    rw [← hlen]
    refine hall a y b hab (hback (fun x hx => ?_) ?_ ha hy)
    · rw [hl]
      exact mem_append_left _ hx
    · rw [hl]
      exact mem_append_right _ mem_cons_self
  · intro hall a y b hab hy
    obtain ⟨u, v, hl, hu⟩ := split_of_filter_eq (hfilter y) (hself y) hab
    have hlen := length_of_pairwise (hab ▸ pairwise_insertionSort r l)
    rw [← hab, hcount, countP_eq_length_filter (l := a), ← hu, ← countP_eq_length_filter] at hlen
    rw [hlen]
    refine hall u y v hl (hback (fun x hx => ?_) ?_ hu hy)
    · rw [← mem_insertionSort r, hab]
      exact mem_append_left _ hx
    · rw [← mem_insertionSort r, hab]
      exact mem_append_right _ mem_cons_self

end

end List
