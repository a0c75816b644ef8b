import Mathlib.Data.Set.Basic
import Mathlib.Logic.Function.Basic

/-!
# Stores whose entries are under the address of their owner

The owners are written to through an address each, which two of them may share.

* `Confined`        between two states only the addresses of `S` changed, and what is new at one
                    belongs to an owner in `S` with that address;
* `Gained`          the second half alone, for a store that may also drop entries;
* `trans`, `foldl`  a run of such steps;
* `Confined.frame`, `Gained.own_of_empty`  an owner with an address of its own sees no change, and
                    finds its own entries only.
-/

set_option linter.unusedVariables false
set_option linter.unusedSectionVars false

section
variable {K V A τ σ : Type} (addr : A → K) (own : A → V → Prop) (S : Set A)

/-- what is new at a key belongs to an owner in `S` with that address -/
def Gained (f f' : K → Set V) : Prop :=
  ∀ k, ∀ v ∈ f' k, v ∈ f k ∨ ∃ a ∈ S, addr a = k ∧ own a v

structure Confined (f f' : K → Set V) : Prop where
  kept : ∀ k, (∀ a ∈ S, addr a ≠ k) → f' k = f k
  gained : Gained addr own S f f'

variable {addr own S} {f f' f'' : K → Set V}

/-! ## runs -/

theorem Gained.refl (f : K → Set V) : Gained addr own S f f := fun _ _ hv => .inl hv

theorem Gained.trans (h : Gained addr own S f f') (h' : Gained addr own S f' f'') :
    Gained addr own S f f'' := by
  intro k v hv
  rcases h' k v hv with hv | ha
  · exact h k v hv
  · exact .inr ha

theorem Gained.of_subset (h : ∀ k, f' k ⊆ f k) : Gained addr own S f f' :=
  fun k v hv => .inl (h k hv)

theorem Confined.refl (f : K → Set V) : Confined addr own S f f := ⟨fun _ _ => rfl, .refl f⟩

theorem Confined.trans (h : Confined addr own S f f') (h' : Confined addr own S f' f'') :
    Confined addr own S f f'' where
  kept k hk := (h'.kept k hk).trans (h.kept k hk)
  gained := h.gained.trans h'.gained

/-- a run of steps that each keep within `S` -/
theorem Confined.foldl {view : σ → K → Set V} {step : σ → τ → σ} {P : τ → Prop}
    (hstep : ∀ s x, P x → Confined addr own S (view s) (view (step s x))) :
    ∀ (l : List τ) (s : σ), (∀ x ∈ l, P x) → Confined addr own S (view s) (view (l.foldl step s))
  | [], s, _ => .refl _
  | x :: l, s, h => (hstep s x (h x List.mem_cons_self)).trans
      (foldl hstep l (step s x) fun y hy => h y (List.mem_cons_of_mem _ hy))

theorem Gained.foldl {view : σ → K → Set V} {step : σ → τ → σ} {P : τ → Prop}
    (hstep : ∀ s x, P x → Gained addr own S (view s) (view (step s x))) :
    ∀ (l : List τ) (s : σ), (∀ x ∈ l, P x) → Gained addr own S (view s) (view (l.foldl step s))
  | [], s, _ => .refl _
  | x :: l, s, h => (hstep s x (h x List.mem_cons_self)).trans
      (foldl hstep l (step s x) fun y hy => h y (List.mem_cons_of_mem _ hy))

/-! ## one write -/

/-- a write at the address of an owner in `S`, of entries that are its own or were there -/
theorem Confined.write [DecidableEq K] {a : A} (ha : a ∈ S) {vs : Set V}
    (hv : ∀ v ∈ vs, v ∈ f (addr a) ∨ own a v) :
    Confined addr own S f (Function.update f (addr a) vs) where
  kept k hk := Function.update_of_ne (hk a ha).symm vs f
  gained := by
    intro k v hm
    by_cases h : k = addr a
    · subst h
      rw [Function.update_self] at hm
      exact (hv v hm).imp_right fun ho => ⟨a, ha, rfl, ho⟩
    · rw [Function.update_of_ne h] at hm
      exact .inl hm

/-! ## an owner with an address of its own -/

/-- nothing changes at an address that no owner in `S` has -/
theorem Confined.frame (h : Confined addr own S f f') {a : A} (ha : ∀ x ∈ S, addr x ≠ addr a) :
    f' (addr a) = f (addr a) := h.kept (addr a) ha

/-- from nothing, an owner finds its own entries at an address that no other has -/
theorem Gained.own_of_empty (h : Gained addr own S f f') {a : A} (h0 : f (addr a) = ∅)
    (ha : ∀ x ∈ S, addr x = addr a → x = a) {v : V} (hv : v ∈ f' (addr a)) : a ∈ S ∧ own a v := by
  rcases h (addr a) v hv with hm | ⟨x, hx, hk, ho⟩
  · rw [h0] at hm
    exact absurd hm (Set.notMem_empty v)
  · obtain rfl := ha x hx hk
    exact ⟨hx, ho⟩

end
