import Mathlib.Logic.Function.Basic
import Mathlib.Order.Lattice

/-!
# Maps of windows

A window is a value with the time from which it is no longer there, when it ends at all.

* `Window`          a value and its end; `Window.LiveAt`;
* `Windows`         a map of windows, and `Windows.live`, what a read sees of it at a time;
* `Windows.comap`   the map under other keys, its values seen through a function;
* `Windows.Alike`   two maps show the same from a time on; `later`, `update` keep it.
-/

set_option linter.unusedVariables false
set_option linter.unusedSectionVars false

structure Window (ν T : Type) where
  value : ν
  expiresAt : Option T := none
deriving DecidableEq

/-- a map of windows -/
abbrev Windows (κ ν T : Type) := κ → Option (Window ν T)

section
variable {κ ν T : Type} [LinearOrder T]

/-- the window has not ended -/
def Window.LiveAt (now : T) (w : Window ν T) : Prop := ∀ e ∈ w.expiresAt, now < e

instance (now : T) (w : Window ν T) : Decidable (w.LiveAt now) :=
  match h : w.expiresAt with
  | none => .isTrue fun e he => by
    rw [h] at he
    cases he
  | some e => decidable_of_iff (now < e) ⟨fun hlt e' he => by
      rw [h, Option.mem_some_iff] at he
      exact he ▸ hlt, fun hl => hl e h⟩

theorem Window.LiveAt.earlier {now now' : T} {w : Window ν T} (h : w.LiveAt now')
    (hle : now ≤ now') : w.LiveAt now := fun e he => lt_of_le_of_lt hle (h e he)

/-- the same window around another value -/
def Window.map {ν' : Type} (f : ν → ν') (w : Window ν T) : Window ν' T := ⟨f w.value, w.expiresAt⟩

namespace Windows

/-- the window of a key, unless it has ended -/
def live (now : T) (m : Windows κ ν T) (k : κ) : Option (Window ν T) :=
  (m k).filter fun w => decide (w.LiveAt now)

theorem live_eq_some {now : T} {m : Windows κ ν T} {k : κ} {w : Window ν T} :
    live now m k = some w ↔ m k = some w ∧ w.LiveAt now := by
  unfold live
  rw [Option.filter_eq_some_iff, decide_eq_true_eq]

/-- what has not ended at `now'` is what had not ended at `now` and still has not -/
theorem live_later {now now' : T} (h : now ≤ now') (m : Windows κ ν T) (k : κ) :
    live now' m k = (live now m k).filter fun w => decide (w.LiveAt now') := by
  unfold live
  rw [Option.filter_filter]
  congr 1
  funext w
  rw [Bool.eq_iff_iff, Bool.and_eq_true, decide_eq_true_eq, decide_eq_true_eq]
  exact ⟨fun hw => ⟨hw.earlier h, hw⟩, And.right⟩

/-- the map under other keys, each value seen through `f` -/
def comap {κ' ν' : Type} (g : κ' → κ) (f : ν → ν') (m : Windows κ ν T) : Windows κ' ν' T :=
  fun k => (m (g k)).map (Window.map f)

theorem live_comap {κ' ν' : Type} (now : T) (g : κ' → κ) (f : ν → ν') (m : Windows κ ν T)
    (k : κ') : live now (comap g f m) k = (live now m (g k)).map (Window.map f) := by
  unfold live comap
  rw [Option.filter_map]
  rfl

theorem comap_update {κ' ν' : Type} [DecidableEq κ] [DecidableEq κ'] {g : κ' → κ}
    (hg : Function.Injective g) (f : ν → ν') (m : Windows κ ν T) (k : κ')
    (w : Option (Window ν T)) : comap g f (Function.update m (g k) w)
      = Function.update (comap g f m) k (w.map (Window.map f)) := by
  funext k'
  unfold comap
  by_cases hk : k' = k
  · subst hk
    rw [Function.update_self, Function.update_self]
  · rw [Function.update_of_ne (fun he => hk (hg he)), Function.update_of_ne hk]

/-- both show the same at `now`, and from then on -/
def Alike (now : T) (m m' : Windows κ ν T) : Prop := ∀ k, live now m k = live now m' k

namespace Alike

theorem refl (now : T) (m : Windows κ ν T) : Alike now m m := fun _ => rfl

theorem symm {now : T} {m m' : Windows κ ν T} (h : Alike now m m') : Alike now m' m :=
  fun k => (h k).symm

theorem trans {now : T} {m m' m'' : Windows κ ν T} (h : Alike now m m') (h' : Alike now m' m'') :
    Alike now m m'' := fun k => (h k).trans (h' k)

theorem later {now now' : T} {m m' : Windows κ ν T} (h : Alike now m m') (hle : now ≤ now') :
    Alike now' m m' := fun k => by rw [live_later hle, live_later hle, h k]

theorem update [DecidableEq κ] {now : T} {m m' : Windows κ ν T} (h : Alike now m m') (k : κ)
    (w : Option (Window ν T)) :
    Alike now (Function.update m k w) (Function.update m' k w) := by
  intro k'
  by_cases hk : k' = k
  · subst hk
    unfold live
    rw [Function.update_self, Function.update_self]
  · have hk' := h k'
    unfold live at hk' ⊢
    rwa [Function.update_of_ne hk, Function.update_of_ne hk]

/-- the ended windows may go -/
theorem sweep (now : T) (m : Windows κ ν T) : Alike now (live now m) m :=
  fun k => (live_later le_rfl m k).symm

/-- a window that has ended may go -/
theorem erase [DecidableEq κ] {now : T} {m : Windows κ ν T} {k : κ} (h : live now m k = none) :
    Alike now (Function.update m k none) m := by
  intro k'
  by_cases hk : k' = k
  · subst hk
    rw [h]
    unfold live
    rw [Function.update_self]
    rfl
  · unfold live
    rw [Function.update_of_ne hk]

/-- a window that is there may be written again -/
theorem touch [DecidableEq κ] {now : T} {m : Windows κ ν T} {k : κ} {w : Window ν T}
    (h : Windows.live now m k = some w) : Alike now (Function.update m k (some w)) m := by
  rw [← (live_eq_some.mp h).1, Function.update_eq_self]
  exact refl now m

end Alike

end Windows

end
