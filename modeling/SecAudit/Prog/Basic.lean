import Mathlib.Logic.Function.Basic
import Mathlib.Data.List.Infix

/-!
# Programs over atomic commands

A program issues commands one at a time and goes on with each reply (a value or an exception).

* `Prog C ε α`     programs over the commands `C`, with exceptions `ε` and results `α`;
* `Prog.attempt`   go on with the outcome of a program, result or exception: `>>=`, `tryCatch`
                   are cases of it;
* `Prog.exec`      run a program alone against a handler of the commands;
* `Contract`, `Prog.Meets`  what a program may rely on in the replies, what it promises about
                   the commands it issues, and about its result, all given the log so far.
-/

set_option linter.unusedVariables false

inductive Prog (C : Type → Type) (ε α : Type) : Type 1 where
  | done (r : Except ε α)
  | call {β : Type} (c : C β) (k : Except ε β → Prog C ε α)

namespace Prog

section
variable {C : Type → Type} {ε α β γ σ : Type}

/-- go on with the outcome of `p` -/
def attempt : Prog C ε α → (Except ε α → Prog C ε β) → Prog C ε β
  | .done r, f => f r
  | .call c k, f => .call c fun r => (k r).attempt f

protected def throw (e : ε) : Prog C ε α := .done (.error e)

/-- a result or exception that is already there -/
def ofExcept (r : Except ε α) : Prog C ε α := .done r

/-- issue one command -/
def perform (c : C α) : Prog C ε α := .call c fun r => .done r

def catchWith (p : Prog C ε α) (f : ε → Prog C ε α) : Prog C ε α :=
  p.attempt fun r => match r with
    | .ok a => .done (.ok a)
    | .error e => f e

instance : Monad (Prog C ε) where
  pure a := .done (.ok a)
  bind p f := p.attempt fun r => match r with
    | .ok a => f a
    | .error e => .done (.error e)

theorem bind_def (p : Prog C ε α) (f : α → Prog C ε β) :
    (p >>= f) = p.attempt fun r => match r with
      | .ok a => f a
      | .error e => .done (.error e) := rfl

theorem attempt_attempt (p : Prog C ε α) (f : Except ε α → Prog C ε β)
    (g : Except ε β → Prog C ε γ) :
    (p.attempt f).attempt g = p.attempt fun r => (f r).attempt g := by
  induction p with
  | done r => rfl
  | call c k ih =>
    show Prog.call c _ = Prog.call c _
    congr 1
    funext r
    exact ih r

theorem bind_bind (p : Prog C ε α) (f : α → Prog C ε β) (g : β → Prog C ε γ) :
    (p >>= f) >>= g = p >>= fun a => f a >>= g := by
  rw [bind_def, bind_def, attempt_attempt, bind_def]
  congr 1
  funext r
  cases r <;> rfl

/-! ## running alone -/

/-- how a store answers the commands -/
abbrev Handler (C : Type → Type) (ε σ : Type) := (β : Type) → C β → σ → Except ε β × σ

def exec (h : Handler C ε σ) : Prog C ε α → σ → Except ε α × σ
  | .done r, s => (r, s)
  | .call c k, s => exec h (k (h _ c s).1) (h _ c s).2

variable (h : Handler C ε σ)

@[simp] theorem exec_done (r : Except ε α) (s : σ) : exec h (.done r) s = (r, s) := rfl

@[simp] theorem exec_pure (a : α) (s : σ) :
    exec h (pure a : Prog C ε α) s = (.ok a, s) := rfl

@[simp] theorem exec_throw (e : ε) (s : σ) :
    exec h (Prog.throw e : Prog C ε α) s = (.error e, s) := rfl

@[simp] theorem exec_ofExcept (r : Except ε α) (s : σ) :
    exec h (ofExcept r) s = (r, s) := rfl

@[simp] theorem exec_perform (c : C α) (s : σ) : exec h (perform c) s = h _ c s := rfl

theorem exec_call {β' : Type} (c : C β') (k : Except ε β' → Prog C ε α) (s : σ) :
    exec h (.call c k) s = exec h (k (h _ c s).1) (h _ c s).2 := rfl

theorem exec_attempt (p : Prog C ε α) (f : Except ε α → Prog C ε β) (s : σ) :
    exec h (p.attempt f) s = exec h (f (exec h p s).1) (exec h p s).2 := by
  induction p generalizing s with
  | done r => rfl
  | call c k ih => exact ih _ _

theorem exec_bind (p : Prog C ε α) (f : α → Prog C ε β) (s : σ) :
    exec h (p >>= f) s = match exec h p s with
      | (.ok a, s') => exec h (f a) s'
      | (.error e, s') => (.error e, s') := by
  rw [bind_def, exec_attempt]
  rcases exec h p s with ⟨r, s'⟩
  cases r <;> rfl

theorem exec_bind_ok {p : Prog C ε α} {f : α → Prog C ε β} {s s' : σ} {a : α}
    (hp : exec h p s = (.ok a, s')) : exec h (p >>= f) s = exec h (f a) s' := by
  rw [exec_bind, hp]

theorem exec_bind_error {p : Prog C ε α} {f : α → Prog C ε β} {s s' : σ} {e : ε}
    (hp : exec h p s = (.error e, s')) : exec h (p >>= f) s = (.error e, s') := by
  rw [exec_bind, hp]

theorem exec_catchWith (p : Prog C ε α) (f : ε → Prog C ε α) (s : σ) :
    exec h (p.catchWith f) s = match exec h p s with
      | (.ok a, s') => (.ok a, s')
      | (.error e, s') => exec h (f e) s' := by
  unfold catchWith
  rw [exec_attempt]
  rcases exec h p s with ⟨r, s'⟩
  cases r <;> rfl

end

/-! ## contracts -/

section
variable (C : Type → Type) (ε α : Type)

/-- one command and the reply to it -/
structure Event : Type 1 where
  {β : Type}
  cmd : C β
  reply : Except ε β

/-- the commands of a call so far, the latest first -/
abbrev Log := List (Event C ε)

structure Contract : Type 1 where
  /-- the replies the program may rely on -/
  reply : Log C ε → {β : Type} → C β → Except ε β → Prop
  /-- the commands it promises to issue -/
  issue : Log C ε → {β : Type} → C β → Prop
  result : Log C ε → Except ε α → Prop

end

section
variable {C : Type → Type} {ε α β : Type}

/-- with the log `l` so far, `p` keeps to the contract -/
def Meets (K : Contract C ε α) : Log C ε → Prog C ε α → Prop
  | l, .done r => K.result l r
  | l, .call c k => K.issue l c ∧ ∀ r, K.reply l c r → Meets K (⟨c, r⟩ :: l) (k r)

/-- the contract `K` with another promise about the result -/
def Contract.withResult (K : Contract C ε α) (Q : Log C ε → Except ε β → Prop) :
    Contract C ε β :=
  ⟨K.reply, K.issue, Q⟩

theorem meets_attempt {K : Contract C ε β} {p : Prog C ε α} {f : Except ε α → Prog C ε β}
    {l : Log C ε} (h : Meets (K.withResult fun l r => Meets K l (f r)) l p) :
    Meets K l (p.attempt f) := by
  induction p generalizing l with
  | done r => exact h
  | call c k ih => exact ⟨h.1, fun r hr => ih r (h.2 r hr)⟩

/-- relying on less, or promising more, keeps to the weaker contract -/
theorem Meets.mono {K K' : Contract C ε α} {p : Prog C ε α} {l : Log C ε} (h : Meets K l p)
    (hreply : ∀ l {β : Type} (c : C β) r, K'.reply l c r → K.reply l c r)
    (hissue : ∀ l {β : Type} (c : C β), K.issue l c → K'.issue l c)
    (hresult : ∀ l r, K.result l r → K'.result l r) : Meets K' l p := by
  induction p generalizing l with
  | done r => exact hresult l r h
  | call c k ih =>
    exact ⟨hissue l c h.1, fun r hr => ih r (h.2 r (hreply l c r hr))⟩

/-- the log only grows -/
theorem Meets.extends {K : Contract C ε α} {p : Prog C ε α} {l : Log C ε} (h : Meets K l p) :
    Meets (K.withResult fun l' r => K.result l' r ∧ l <:+ l') l p := by
  induction p generalizing l with
  | done r => exact ⟨h, List.suffix_refl l⟩
  | call c k ih =>
    refine ⟨h.1, fun r hr => ?_⟩
    refine Meets.mono (ih r (h.2 r hr)) (fun l β c r hr => hr) (fun l β c hc => hc) ?_
    intro l' r' h'
    exact ⟨h'.1, (List.suffix_cons _ _).trans h'.2⟩

/-- a promise about the result alone may be weakened -/
theorem Meets.conseq {K : Contract C ε β} {P Q : Log C ε → Except ε α → Prop} {p : Prog C ε α}
    {l : Log C ε} (h : Meets (K.withResult P) l p) (hQ : ∀ l' r, l <:+ l' → P l' r → Q l' r) :
    Meets (K.withResult Q) l p :=
  Meets.mono h.extends (fun l β c r hr => hr) (fun l β c hc => hc) fun l' r h' => hQ l' r h'.2 h'.1

/-- `p >>= f`: an exception of `p` is the result, else `f` goes on -/
theorem meets_bind {K : Contract C ε β} {P : Log C ε → Except ε α → Prop} {p : Prog C ε α}
    {f : α → Prog C ε β} {l : Log C ε} (hp : Meets (K.withResult P) l p)
    (hok : ∀ l' a, l <:+ l' → P l' (.ok a) → Meets K l' (f a))
    (herr : ∀ l' e, l <:+ l' → P l' (.error e) → K.result l' (.error e)) :
    Meets K l (p >>= f) := by
  rw [bind_def]
  apply meets_attempt
  refine Meets.conseq hp ?_
  intro l' r hl hr
  cases r with
  | ok a => exact hok l' a hl hr
  | error e => exact herr l' e hl hr

theorem meets_catchWith {K : Contract C ε α} {P : Log C ε → Except ε α → Prop} {p : Prog C ε α}
    {f : ε → Prog C ε α} {l : Log C ε} (hp : Meets (K.withResult P) l p)
    (hok : ∀ l' a, l <:+ l' → P l' (.ok a) → K.result l' (.ok a))
    (herr : ∀ l' e, l <:+ l' → P l' (.error e) → Meets K l' (f e)) :
    Meets K l (p.catchWith f) := by
  apply meets_attempt
  refine Meets.conseq hp ?_
  intro l' r hl hr
  cases r with
  | ok a => exact hok l' a hl hr
  | error e => exact herr l' e hl hr

/-- **a call that runs alone**: when the store keeps the invariant and gives the replies the
contract relies on, the result is as promised -/
theorem exec_meets {σ : Type} {h : Handler C ε σ} {K : Contract C ε α}
    {I : Log C ε → σ → Prop}
    (hstep : ∀ l s {β : Type} (c : C β), I l s → K.issue l c →
      K.reply l c (h _ c s).1 ∧ I (⟨c, (h _ c s).1⟩ :: l) (h _ c s).2)
    {p : Prog C ε α} {l : Log C ε} {s : σ} (hp : Meets K l p) (hI : I l s) :
    ∃ l', I l' (exec h p s).2 ∧ K.result l' (exec h p s).1 := by
  induction p generalizing l s with
  | done r => exact ⟨l, hI, hp⟩
  | call c k ih =>
    obtain ⟨hr, hI'⟩ := hstep l s c hI hp.1
    exact ih _ (hp.2 _ hr) hI'

end

end Prog
