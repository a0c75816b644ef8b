import SecAudit.Core.Exc
import SecAudit.Prog.OnceRuns

/-!
# The runtimes are built once

The logging runtime and the enforcement runtime are globals of their modules, built when they are
first asked for, by whichever thread or request comes first; the enforcement runtime is built with
the logging runtime.

* `Global`          the two globals, and the types of what they hold;
* `Builders`        what is called to build the two;
* `getRuntime`, `getEnforcementRuntime`  the value of a global, built when it is not there;
* `runtimes_once`   in every interleaved run at most one of each is built, all callers get that one,
                    and no call waits for ever.
-/

set_option linter.unusedVariables false

namespace SecAudit
open Prog

namespace Runtimes

/-- `_runtime` of the logging side, and that of the enforcement -/
inductive Global where
  | logging
  | enforcement
deriving DecidableEq

/-- the lock of the enforcement is taken before that of the logging side -/
def Global.rank : Global → Nat
  | .logging => 0
  | .enforcement => 1

section
variable (Logging Enforcement : Type)

def Global.Runtime : Global → Type
  | .logging => Logging
  | .enforcement => Enforcement

/-- what is called under the locks: it asks for neither of the two -/
structure Builders (C : Type → Type) (Config : Type) where
  /-- `_build_runtime(settings)` of the logging side -/
  buildLogging : Prog C Exc Logging
  /-- `get_config` -/
  getConfig : Prog C Exc Config
  /-- `_build_runtime` of the enforcement, after its call of `get_runtime` -/
  buildWith : Config → Option Logging → Prog C Exc Enforcement

variable {Logging Enforcement} {C : Type → Type} {Config : Type}
  (b : Builders Logging Enforcement C Config)

/-- the commands on the two globals and their locks, and the others -/
abbrev Globals (Logging Enforcement : Type) (C : Type → Type) : Type → Type :=
  Once.Cmd Global (Global.Runtime Logging Enforcement) C

/-- `get_runtime` -/
def getRuntime : Prog (Globals Logging Enforcement C) Exc
    (Option (Global.logging.Runtime Logging Enforcement)) :=
  Once.once (V := Global.Runtime Logging Enforcement) Global.logging
    (Once.others b.buildLogging)

/-- `_build_runtime(get_config())` of the enforcement -/
def buildEnforcement : Prog (Globals Logging Enforcement C) Exc
    (Global.enforcement.Runtime Logging Enforcement) := do
  let config ← Once.others b.getConfig
  let logging ← getRuntime b
  Once.others (b.buildWith config logging)

/-- `get_enforcement_runtime` -/
def getEnforcementRuntime : Prog (Globals Logging Enforcement C) Exc
    (Option (Global.enforcement.Runtime Logging Enforcement)) :=
  Once.once (V := Global.Runtime Logging Enforcement) Global.enforcement
    (buildEnforcement b)

/-- a call of one of the two, and what it returns -/
def ask : Global → Prog (Globals Logging Enforcement C) Exc
    ((i : Global) × Option (i.Runtime Logging Enforcement))
  | .logging => getRuntime b >>= fun v => pure ⟨.logging, v⟩
  | .enforcement => getEnforcementRuntime b >>= fun v => pure ⟨.enforcement, v⟩

/-! ## what a call promises -/

/-- a call that returns gives the value of its global -/
def Returns (i : Global) (l : Log (Globals Logging Enforcement C) Exc)
    (r : Except Exc ((i : Global) × Option (i.Runtime Logging Enforcement))) : Prop :=
  ∀ x, r = .ok x → ∃ v, x = ⟨i, some v⟩ ∧ Once.Seen i v l

theorem meets_getRuntime {l : Log (Globals Logging Enforcement C) Exc}
    (hl : ∀ j, Once.phase j l ≠ .outside → Global.rank .logging < j.rank) :
    Meets (Once.steady Global.rank (Once.Got .logging) l) l (getRuntime b) :=
  Once.meets_once hl fun l' _ _ => Once.meets_others _ (.refl l')

theorem meets_buildEnforcement {l : Log (Globals Logging Enforcement C) Exc}
    (hl : ∀ j, Once.phase j l ≠ .outside → Global.rank .enforcement ≤ j.rank) :
    Meets (Once.steady Global.rank (fun _ _ => True) l) l (buildEnforcement b) := by
  refine meets_bind (Once.meets_others _ (.refl l)) (fun l' config _ h => ?_)
    fun l' e _ h => ⟨h.1, trivial⟩
  have hl' : ∀ j, Once.phase j l' ≠ .outside → Global.rank .logging < j.rank :=
    fun j hj => Nat.lt_of_lt_of_le (by decide) (hl j (h.1 j ▸ hj))
  refine meets_bind (meets_getRuntime b hl') (fun l'' logging _ h' => ?_)
    fun l'' e _ h' => ⟨h.1.trans h'.1, trivial⟩
  exact Once.meets_others _ (h.1.trans h'.1)

theorem meets_getEnforcementRuntime :
    Meets (Once.steady Global.rank (Once.Got .enforcement) []) [] (getEnforcementRuntime b) :=
  Once.meets_once (fun j hj => absurd rfl hj) fun l' _ hl' => meets_buildEnforcement b hl'

theorem meets_ask (i : Global) :
    Meets (Once.orderly Global.rank (Returns i)) [] (ask b i) := by
  have hret : ∀ (i : Global) (l : Log (Globals Logging Enforcement C) Exc) v, Once.Same [] l →
      Once.Got i l (.ok v) → (∀ j, Once.phase j l = .outside) ∧
        Returns i l (.ok ⟨i, v⟩) := by
    intro i l v hs hgot
    refine ⟨hs, fun x hx => ?_⟩
    obtain ⟨w, rfl, hw⟩ := hgot v rfl
    exact ⟨w, (Except.ok.inj hx).symm, hw⟩
  cases i with
  | logging =>
    exact meets_bind (meets_getRuntime b fun j hj => absurd rfl hj)
      (fun l v _ h => hret .logging l v h.1 h.2) fun l e _ h => ⟨h.1, fun x hx => by cases hx⟩
  | enforcement =>
    exact meets_bind (meets_getEnforcementRuntime b)
      (fun l v _ h => hret .enforcement l v h.1 h.2) fun l e _ h => ⟨h.1, fun x hx => by cases hx⟩

/-! ## any interleaving -/

/-- calls of the two in progress, the globals, and the rest -/
abbrev Process (Logging Enforcement : Type) (C : Type → Type) (σ : Type) :=
  Pool (Globals Logging Enforcement C) Exc ((i : Global) × Option (i.Runtime Logging Enforcement))
    Global (Once.Shared Global (Global.Runtime Logging Enforcement) σ)

section
variable {X σ : Type} {h : Handler C Exc σ} {env : X → σ → σ}

/-- what the call of a worker returns, when it is over -/
def obtained (p : Process Logging Enforcement C σ) (w : Nat) :
    Option ((i : Global) × Option (i.Runtime Logging Enforcement)) :=
  (p.jobs w).bind fun j => match j.rest with
    | .done (.ok x) => some x
    | _ => none

/-- the call of a worker is under a lock -/
def UnderLock (p : Process Logging Enforcement C σ) (i : Global) (w : Nat) : Prop :=
  Once.phase i (Once.logs p w) ≠ .outside

theorem obtained_value {p : Process Logging Enforcement C σ}
    (hk : Once.Kept Global.rank Returns p) {w : Nat} {i : Global}
    {o : Option (i.Runtime Logging Enforcement)} (hret : obtained p w = some ⟨i, o⟩) :
    ∃ v, o = some v ∧ p.shared.cells i = [v] := by
  unfold obtained at hret
  obtain ⟨j, hj, hret⟩ := Option.bind_eq_some_iff.mp hret
  have hm := hk.meets w j hj
  cases hr : j.rest with
  | call c k =>
    rw [hr] at hret
    cases hret
  | done r =>
    rw [hr] at hret hm
    cases r with
    | error e => cases hret
    | ok x =>
      obtain rfl : x = ⟨i, o⟩ := Option.some.inj hret
      obtain ⟨v, hx, hv⟩ := hm.2 _ rfl
      obtain ⟨hi, ho⟩ := Sigma.mk.inj hx
      subst hi
      obtain rfl := eq_of_heq ho
      exact ⟨v, rfl, hk.good.seen _ v w (by rwa [Once.logs_of hj])⟩

/-- **the runtimes are built once**: in every interleaving of calls from any threads, whatever is
built or raises meanwhile, where calls wait for a lock that is held: at most one of each runtime is
ever stored; no two calls are under one lock; whatever calls return, at whatever time, is that one;
and as long as a call is in progress, some call need not wait -/
theorem runtimes_once {s : σ} {as bs : List (Act Global X)}
    {p p' : Process Logging Enforcement C σ}
    (hw : Along (Once.handler h) (ask b) (Once.onRest env) Once.Waits
      (Pool.idle (.fresh Global (Global.Runtime Logging Enforcement) s)) (as ++ bs))
    (hr : run (Once.handler h) (ask b) (Once.onRest env)
      (Pool.idle (.fresh Global (Global.Runtime Logging Enforcement) s)) as = some p)
    (hr' : run (Once.handler h) (ask b) (Once.onRest env) p bs = some p') :
    (∀ i, (p'.shared.cells i).length ≤ 1) ∧
    (∀ i w w', UnderLock p' i w → UnderLock p' i w' → w = w') ∧
    (∀ i w w' o o', obtained p w = some ⟨i, o⟩ → obtained p' w' = some ⟨i, o'⟩ →
      ∃ v, o = some v ∧ o' = some v ∧ p'.shared.cells i = [v]) ∧
    ∀ w j, p'.jobs w = some j → Once.Moves h (ask b) env p' := by
  have hk := Once.run_good (meets_ask b) hw.left hr
  have hk' := Once.run_kept (meets_ask b) hk (along_append _ _ _ hw hr) hr'
  refine ⟨hk'.good.short, hk'.good.alone, fun i w w' o o' ho ho' => ?_,
    fun w j hj => Once.progress hk' hj⟩
  obtain ⟨v, rfl, hv⟩ := obtained_value hk ho
  obtain ⟨v', rfl, hv'⟩ := obtained_value hk' ho'
  have := Once.run_keeps (meets_ask b) hk hv (along_append _ _ _ hw hr) hr'
  rw [hv'] at this
  obtain rfl := List.singleton_inj.mp this
  exact ⟨v', rfl, rfl, hv'⟩

/-! ## two callers at once -/

/-- builds that do nothing -/
def Builders.quiet : Builders Unit Unit (fun _ => Empty) Unit where
  buildLogging := pure ()
  getConfig := pure ()
  buildWith _ _ := pure ()

/-- two requests ask for the enforcement runtime: both find it missing, the first builds it -/
def firstBuilds : List (Act Global Unit) :=
  [.call 0 .enforcement, .call 1 .enforcement, .step 0, .step 1] ++ List.replicate 11 (.step 0)

/-- and the second finds it under the lock -/
def secondFinds : List (Act Global Unit) := List.replicate 4 (.step 1)

/-- no other commands -/
def noHandler : Handler (fun _ => Empty) Exc Unit := fun _ c _ => nomatch c

/-- before any call -/
def untouched : Process Unit Unit (fun _ => Empty) Unit :=
  Pool.idle (.fresh Global (Global.Runtime Unit Unit) ())

/-- a run of the calls of the two -/
def runQuiet (p : Process Unit Unit (fun _ => Empty) Unit) (as : List (Act Global Unit)) :
    Option (Process Unit Unit (fun _ => Empty) Unit) :=
  run (Once.handler noHandler) (ask .quiet) (Once.onRest fun (_ : Unit) s => s) p as

theorem runtimes_once_two : ∃ p p' : Process Unit Unit (fun _ => Empty) Unit,
    ((obtained p 0).isSome = true ∧ (obtained p' 1).isSome = true) ∧
    (∀ i, (p'.shared.cells i).length ≤ 1) ∧
    (∀ i w w', UnderLock p' i w → UnderLock p' i w' → w = w') ∧
    (∀ i w w' o o', obtained p w = some ⟨i, o⟩ → obtained p' w' = some ⟨i, o'⟩ →
      ∃ v, o = some v ∧ o' = some v ∧ p'.shared.cells i = [v]) ∧
    ∀ w j, p'.jobs w = some j →
      Once.Moves noHandler (ask .quiet) (fun (_ : Unit) s => s) p' := by
  have h : ((runQuiet untouched firstBuilds).any fun p => (obtained p 0).isSome &&
      (runQuiet p secondFinds).any fun p' => (obtained p' 1).isSome) = true := by decide +kernel
  obtain ⟨p, hp, h⟩ := (Option.any_eq_true _ _).mp h
  obtain ⟨h₀, h⟩ := Bool.and_eq_true_iff.mp h
  obtain ⟨p', hp', h₁⟩ := (Option.any_eq_true _ _).mp h
  have hw : Along (Once.handler noHandler) (ask .quiet) (Once.onRest fun (_ : Unit) s => s)
      Once.Waits untouched (firstBuilds ++ secondFinds) := by decide +kernel
  exact ⟨p, p', ⟨h₀, h₁⟩, runtimes_once .quiet hw hp hp'⟩

end

end

end Runtimes

end SecAudit
