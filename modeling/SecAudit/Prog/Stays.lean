import SecAudit.Prog.Steps

/-!
# What a program does and returns, within what is known of the replies

* `Prog.Stays`      as long as each reply is as said, every command is, and the value returned;
* `Stays.bind`, `Stays.attempt`, `Stays.catchWith`  the parts of a program, put together;
* `Only.stays`      a program that can issue no other commands at all;
* `Stays.steps`     what was done is as said.
-/

set_option linter.unusedVariables false

namespace Prog

section
variable {C : Type → Type} {ε α β σ : Type}

/-- as long as the replies are `R`, `p` issues only commands `P`, and a value it returns is `Q` -/
def Stays (R : Replies C ε) (P : (β : Type) → C β → Prop) (Q : α → Prop) : Prog C ε α → Prop
  | .done (.ok a) => Q a
  | .done (.error _) => True
  | .call c k => P _ c ∧ ∀ r, R _ c r → Stays R P Q (k r)

variable {R : Replies C ε} {P : (β : Type) → C β → Prop} {Q : α → Prop} {S : β → Prop}
  {p : Prog C ε α}

theorem stays_pure {a : α} (h : Q a) : Stays R P Q (pure a : Prog C ε α) := h

theorem stays_throw (e : ε) : Stays R P Q (Prog.throw e : Prog C ε α) := trivial

theorem stays_perform {c : C α} (hc : P _ c) (h : ∀ a, R _ c (.ok a) → Q a) :
    Stays R P Q (perform c : Prog C ε α) := by
  refine ⟨hc, fun r hr => ?_⟩
  cases r with
  | error e => trivial
  | ok a => exact h a hr

theorem Stays.attempt {f : Except ε α → Prog C ε β} (hp : Stays R P Q p)
    (hok : ∀ a, Q a → Stays R P S (f (.ok a))) (herr : ∀ e, Stays R P S (f (.error e))) :
    Stays R P S (p.attempt f) := by
  induction p with
  | done r =>
    cases r with
    | error e => exact herr e
    | ok a => exact hok a hp
  | call c k ih => exact ⟨hp.1, fun r hr => ih r (hp.2 r hr)⟩

theorem Stays.bind {f : α → Prog C ε β} (hp : Stays R P Q p)
    (hf : ∀ a, Q a → Stays R P S (f a)) : Stays R P S (p >>= f) :=
  hp.attempt hf fun e => trivial

/-- a value that is already there -/
theorem Stays.ofExcept {x : Except ε α} {f : α → Prog C ε β}
    (hf : ∀ a, x = .ok a → Stays R P S (f a)) : Stays R P S (ofExcept x >>= f) := by
  cases x with
  | error e => trivial
  | ok a => exact hf a rfl

theorem Stays.catchWith {f : ε → Prog C ε α} (hp : Stays R P Q p)
    (hf : ∀ e, Stays R P Q (f e)) : Stays R P Q (p.catchWith f) :=
  hp.attempt (fun a h => h) hf

theorem Stays.mono {Q' : α → Prop} (hp : Stays R P Q p) (hQ : ∀ a, Q a → Q' a) :
    Stays R P Q' p := by
  induction p with
  | done r =>
    cases r with
    | error e => trivial
    | ok a => exact hQ a hp
  | call c k ih => exact ⟨hp.1, fun r hr => ih r (hp.2 r hr)⟩

/-- whatever the replies -/
theorem Only.stays (hp : Only P p) : Stays R P (fun _ => True) p := by
  induction p with
  | done r =>
    cases r with
    | error e => trivial
    | ok a => trivial
  | call c k ih => exact ⟨hp.1, fun r hr => ih r (hp.2 r)⟩

/-- **what was done** -/
theorem Stays.steps {t : List (Event C ε)} {q : Prog C ε α} (hp : Stays R P Q p)
    (h : Steps R p t q) : ∀ x ∈ t, P x.β x.cmd := by
  induction h with
  | refl p => exact fun x hx => absurd hx List.not_mem_nil
  | cons hr _ ih => exact List.forall_mem_cons.mpr ⟨hp.1, ih (hp.2 _ hr)⟩

end

end Prog
