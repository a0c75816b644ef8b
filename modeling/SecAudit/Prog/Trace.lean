import SecAudit.Prog.Basic

/-!
# What a program has done

* `Prog.trace`  the commands of a program that runs alone, with the replies, in order;
* `Prog.Runs`   the trace, the outcome and the last state of a run, in one statement;
* `Runs.attempt`, `Runs.bind`, `Runs.bind_error`, `Runs.caught`  the parts of a program, put
                together.
-/

set_option linter.unusedVariables false

namespace Prog

section
variable {C : Type → Type} {ε α β σ : Type}

/-- the commands `p` issues from `s`, with the replies, the first first -/
def trace (h : Handler C ε σ) : Prog C ε α → σ → List (Event C ε)
  | .done _, _ => []
  | .call c k, s => ⟨c, (h _ c s).1⟩ :: trace h (k (h _ c s).1) (h _ c s).2

variable (h : Handler C ε σ)

theorem trace_attempt (p : Prog C ε α) (f : Except ε α → Prog C ε β) (s : σ) :
    trace h (p.attempt f) s = trace h p s ++ trace h (f (exec h p s).1) (exec h p s).2 := by
  induction p generalizing s with
  | done r => rfl
  | call c k ih =>
    show _ :: trace h _ _ = _ :: (trace h _ _ ++ _)
    rw [ih]
    rfl

/-- alone from `s`, `p` ends in `s'` with `r`, and has done `t` -/
structure Runs (p : Prog C ε α) (s : σ) (t : List (Event C ε)) (r : Except ε α) (s' : σ) :
    Prop where
  exec_eq : exec h p s = (r, s')
  trace_eq : trace h p s = t

variable {h} {p : Prog C ε α} {s s' s'' : σ} {t t' : List (Event C ε)} {r : Except ε α}

theorem runs_self (h : Handler C ε σ) (p : Prog C ε α) (s : σ) :
    Runs h p s (trace h p s) (exec h p s).1 (exec h p s).2 := ⟨rfl, rfl⟩

namespace Runs

theorem result (hp : Runs h p s t r s') : (exec h p s).1 = r := by rw [hp.exec_eq]

theorem done (r : Except ε α) (s : σ) : Runs h (.done r) s [] r s := ⟨rfl, rfl⟩

theorem perform (c : C α) (s : σ) :
    Runs h (Prog.perform c) s [⟨c, (h _ c s).1⟩] (h _ c s).1 (h _ c s).2 := ⟨rfl, rfl⟩

theorem attempt {f : Except ε α → Prog C ε β} {r' : Except ε β} (hp : Runs h p s t r s')
    (hf : Runs h (f r) s' t' r' s'') : Runs h (p.attempt f) s (t ++ t') r' s'' := by
  constructor
  · rw [exec_attempt, hp.exec_eq, hf.exec_eq]
  · rw [trace_attempt, hp.exec_eq, hp.trace_eq, hf.trace_eq]

/-- an outcome that is only turned into another -/
theorem handled {f : Except ε α → Prog C ε β} {r' : Except ε β} (hp : Runs h p s t r s')
    (hf : f r = .done r') : Runs h (p.attempt f) s t r' s' := by
  rw [← List.append_nil t]
  refine attempt hp ?_
  rw [hf]
  exact done r' s'

theorem bind {a : α} {f : α → Prog C ε β} {r' : Except ε β} (hp : Runs h p s t (.ok a) s')
    (hf : Runs h (f a) s' t' r' s'') : Runs h (p >>= f) s (t ++ t') r' s'' :=
  attempt hp hf

theorem bind_error {e : ε} {f : α → Prog C ε β} (hp : Runs h p s t (.error e) s') :
    Runs h (p >>= f) s t (.error e) s' := by
  rw [← List.append_nil t]
  exact attempt hp (done (.error e) s')

/-- no exception to catch -/
theorem uncaught {a : α} {f : ε → Prog C ε α} (hp : Runs h p s t (.ok a) s') :
    Runs h (p.catchWith f) s t (.ok a) s' := by
  rw [← List.append_nil t]
  exact attempt hp (done (.ok a) s')

/-- a value that is already there -/
theorem ofExcept_ok {x : Except ε α} {a : α} {f : α → Prog C ε β} {r' : Except ε β}
    (hx : x = .ok a) (hf : Runs h (f a) s t' r' s'') : Runs h (ofExcept x >>= f) s t' r' s'' := by
  subst hx
  exact bind (done _ _) hf

theorem ofExcept_error {x : Except ε α} {e : ε} {f : α → Prog C ε β} (hx : x = .error e) :
    Runs h (ofExcept x >>= f) s [] (.error e) s := by
  subst hx
  exact bind_error (done _ _)

end Runs

end

end Prog
