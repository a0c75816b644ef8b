import Mathlib.Data.List.Forall2

/-!
# Ledgers

A ledger is a list that grows at its end, and whose entries only change as a relation allows.

* `Grown R l l'`    `l'` is what has become of `l`;
* `Grown.refl`, `Grown.trans`  so it is over any number of steps;
* `grown_append`, `grown_map`  the two ways to change a ledger;
* `Successive P E`  an entry comes after those it excludes only when they are over.
-/

set_option linter.unusedVariables false

section
variable {α : Type} {R : α → α → Prop} {l l' l'' : List α}

/-- the entries of `l` are there in their order, each as `R` allows, and others after them -/
def Grown (R : α → α → Prop) (l l' : List α) : Prop :=
  ∃ old new, l' = old ++ new ∧ List.Forall₂ R l old

theorem Grown.refl (hR : ∀ a, R a a) (l : List α) : Grown R l l :=
  ⟨l, [], (List.append_nil l).symm, List.forall₂_same.mpr fun a _ => hR a⟩

theorem grown_entries_trans (hR : ∀ a b c, R a b → R b c → R a c) (h : List.Forall₂ R l l') :
    ∀ {l''}, List.Forall₂ R l' l'' → List.Forall₂ R l l'' := by
  induction h with
  | nil => exact id
  | cons hab _ ih =>
    intro l'' h'
    cases h' with
    | cons hbc h' => exact .cons (hR _ _ _ hab hbc) (ih h')

theorem Grown.trans (hR : ∀ a b c, R a b → R b c → R a c) (h : Grown R l l')
    (h' : Grown R l' l'') : Grown R l l'' := by
  obtain ⟨old, new, rfl, hold⟩ := h
  obtain ⟨old', new', rfl, hold'⟩ := h'
  have htake := List.forall₂_take old.length hold'
  rw [List.take_left] at htake
  refine ⟨old'.take old.length, old'.drop old.length ++ new', ?_, grown_entries_trans hR hold htake⟩
  rw [← List.append_assoc, List.take_append_drop]

theorem grown_append (hR : ∀ a, R a a) (l new : List α) : Grown R l (l ++ new) :=
  ⟨l, new, rfl, List.forall₂_same.mpr fun a _ => hR a⟩

theorem grown_map {f : α → α} (hf : ∀ a, R a (f a)) (l : List α) : Grown R l (l.map f) :=
  ⟨l.map f, [], (List.append_nil _).symm, List.forall₂_map_right_iff.mpr
    (List.forall₂_same.mpr fun a _ => hf a)⟩

end

/-! ## entries one after the other -/

section
variable {α : Type} {past : α → Prop} {clash : α → α → Prop} {l : List α}

/-- an entry comes after one it clashes with only when that one is over -/
def Successive (past : α → Prop) (clash : α → α → Prop) (l : List α) : Prop :=
  l.Pairwise fun a b => clash a b → past a

/-- what is over stays so, and the clashes stay -/
theorem Successive.map (h : Successive past clash l) {f : α → α}
    (hpast : ∀ a ∈ l, past a → past (f a)) (hclash : ∀ a b, clash (f a) (f b) → clash a b) :
    Successive past clash (l.map f) := by
  unfold Successive
  rw [List.pairwise_map]
  refine h.imp_of_mem fun {a b} ha _ hab hc => hpast a ha (hab (hclash a b hc))

theorem Successive.concat (h : Successive past clash l) {b : α}
    (hb : ∀ a ∈ l, clash a b → past a) : Successive past clash (l ++ [b]) := by
  refine List.pairwise_append.mpr ⟨h, List.pairwise_singleton _ _, fun a ha b' hb' => ?_⟩
  rw [List.mem_singleton.mp hb']
  exact hb a ha

end
