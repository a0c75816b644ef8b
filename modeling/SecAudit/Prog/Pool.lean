import SecAudit.Prog.Basic

/-!
# Several workers, one store: interleaved runs

Each worker runs one call at a time; a run interleaves the commands of all calls in progress with
actions of the environment.

* `Job`, `Pool`     a call in progress (operation, log, rest of its program); the shared store
                    and the job of each worker;
* `Act`, `act`      one step: a worker starts a call, issues its next command, hands back the
                    result of a finished call, or the environment acts;
* `act_cases`       everything a step can do;
* `Along`, `run_inv`  a condition on every step of a run, and the invariant rule under it;
* `run_history`     the invariant rule, where the invariant speaks of the steps so far;
* `AllMeet`, `allMeet_act`  every job keeps to the contract of its operation.
-/

set_option linter.unusedVariables false

namespace Prog

section
variable (C : Type → Type) (ε α O σ : Type)

structure Job : Type 1 where
  op : O
  log : Log C ε
  rest : Prog C ε α

structure Pool : Type 1 where
  shared : σ
  jobs : Nat → Option (Job C ε α O)

end

inductive Act (O X : Type) where
  | call (w : Nat) (o : O)
  | step (w : Nat)
  | ret (w : Nat)
  | env (x : X)

section
variable {C : Type → Type} {ε α O X σ : Type}

/-- no call in progress -/
def Pool.idle (s : σ) : Pool C ε α O σ := ⟨s, fun _ => none⟩

/-- put `j` in the place of the job of worker `w` -/
def Pool.setJob (p : Pool C ε α O σ) (w : Nat) (j : Option (Job C ε α O)) : Pool C ε α O σ :=
  { p with jobs := Function.update p.jobs w j }

@[simp] theorem Pool.setJob_shared (p : Pool C ε α O σ) (w : Nat) (j : Option (Job C ε α O)) :
    (p.setJob w j).shared = p.shared := rfl

theorem Pool.setJob_same (p : Pool C ε α O σ) (w : Nat) (j : Option (Job C ε α O)) :
    (p.setJob w j).jobs w = j := Function.update_self ..

theorem Pool.setJob_other (p : Pool C ε α O σ) {w v : Nat} (j : Option (Job C ε α O))
    (h : v ≠ w) : (p.setJob w j).jobs v = p.jobs v := Function.update_of_ne h ..

/-- the job after the reply `r` to its next command `c` -/
def Job.after {β : Type} (j : Job C ε α O) (c : C β) (r : Except ε β) (rest : Prog C ε α) :
    Job C ε α O :=
  { j with log := ⟨c, r⟩ :: j.log, rest := rest }

end

section
variable {C : Type → Type} {ε α O X σ : Type}
variable (h : Handler C ε σ) (prog : O → Prog C ε α) (env : X → σ → σ)

def act (p : Pool C ε α O σ) : Act O X → Option (Pool C ε α O σ)
  | .call w o => match p.jobs w with
    | none => some (p.setJob w (some ⟨o, [], prog o⟩))
    | some _ => none
  | .step w => match p.jobs w with
    | some j => match j.rest with
      | .call c k => some (({ p with shared := (h _ c p.shared).2 } : Pool C ε α O σ).setJob w
          (some (j.after c (h _ c p.shared).1 (k (h _ c p.shared).1))))
      | .done _ => none
    | none => none
  | .ret w => match p.jobs w with
    | some j => match j.rest with
      | .done _ => some (p.setJob w none)
      | .call _ _ => none
    | none => none
  | .env x => some { p with shared := env x p.shared }

def run : Pool C ε α O σ → List (Act O X) → Option (Pool C ε α O σ)
  | p, [] => some p
  | p, a :: as => (act h prog env p a).bind fun p' => run p' as

/-- everything one step can do -/
theorem act_cases {p p' : Pool C ε α O σ} {a : Act O X} (ha : act h prog env p a = some p') :
    (∃ w o, a = .call w o ∧ p.jobs w = none ∧ p' = p.setJob w (some ⟨o, [], prog o⟩)) ∨
    (∃ w j, ∃ (β : Type) (c : C β) (k : Except ε β → Prog C ε α), a = .step w ∧
      p.jobs w = some j ∧ j.rest = .call c k ∧
      p' = ({ p with shared := (h _ c p.shared).2 } : Pool C ε α O σ).setJob w
        (some (j.after c (h _ c p.shared).1 (k (h _ c p.shared).1)))) ∨
    (∃ w j r, a = .ret w ∧ p.jobs w = some j ∧ j.rest = .done r ∧ p' = p.setJob w none) ∨
    (∃ x, a = .env x ∧ p' = { p with shared := env x p.shared }) := by
  cases a with
  | call w o =>
    left
    cases hj : p.jobs w with
    | none =>
      simp only [act, hj] at ha
      exact ⟨w, o, rfl, hj, (Option.some.inj ha).symm⟩
    | some j => simp only [act, hj, reduceCtorEq] at ha
  | step w =>
    right; left
    cases hj : p.jobs w with
    | none => simp only [act, hj, reduceCtorEq] at ha
    | some j =>
      cases hr : j.rest with
      | done r => simp only [act, hj, hr, reduceCtorEq] at ha
      | call c k =>
        simp only [act, hj, hr] at ha
        exact ⟨w, j, _, c, k, rfl, hj, hr, (Option.some.inj ha).symm⟩
  | ret w =>
    right; right; left
    cases hj : p.jobs w with
    | none => simp only [act, hj, reduceCtorEq] at ha
    | some j =>
      cases hr : j.rest with
      | done r =>
        simp only [act, hj, hr] at ha
        exact ⟨w, j, r, rfl, hj, hr, (Option.some.inj ha).symm⟩
      | call c k => simp only [act, hj, hr, reduceCtorEq] at ha
  | env x =>
    right; right; right
    exact ⟨x, rfl, (Option.some.inj ha).symm⟩

/-! ## conditions along a run -/

/-- `G` holds at every step of the run of `as` from `p` -/
def Along (G : Pool C ε α O σ → Act O X → Prop) : Pool C ε α O σ → List (Act O X) → Prop
  | _, [] => True
  | p, a :: as => G p a ∧ ∀ p', act h prog env p a = some p' → Along G p' as

theorem along_append {G : Pool C ε α O σ → Act O X → Prop} {p p' : Pool C ε α O σ}
    {as bs : List (Act O X)} (hG : Along h prog env G p (as ++ bs))
    (hr : run h prog env p as = some p') : Along h prog env G p' bs := by
  induction as generalizing p with
  | nil => cases hr; exact hG
  | cons a as ih =>
    obtain ⟨q, hq, hr'⟩ := Option.bind_eq_some_iff.mp hr
    exact ih (hG.2 q hq) hr'

theorem Along.left {G : Pool C ε α O σ → Act O X → Prop} {p : Pool C ε α O σ}
    {as bs : List (Act O X)} (hG : Along h prog env G p (as ++ bs)) :
    Along h prog env G p as := by
  induction as generalizing p with
  | nil => trivial
  | cons a as ih => exact ⟨hG.1, fun p' hp' => ih (hG.2 p' hp')⟩

theorem along_true (p : Pool C ε α O σ) :
    ∀ as : List (Act O X), Along h prog env (fun _ _ => True) p as
  | [] => trivial
  | a :: as => ⟨trivial, fun p' _ => along_true p' as⟩

theorem along_cons {G : Pool C ε α O σ → Act O X → Prop} {p : Pool C ε α O σ} {a : Act O X}
    {as : List (Act O X)} : Along h prog env G p (a :: as) ↔
      G p a ∧ (act h prog env p a).elim True fun p' => Along h prog env G p' as := by
  show (G p a ∧ ∀ p', act h prog env p a = some p' → _) ↔ _
  cases act h prog env p a with
  | none => exact and_congr_right fun _ => iff_of_true (fun p' hp' => by cases hp') trivial
  | some q =>
    refine and_congr_right fun _ => ⟨fun hall => hall q rfl, fun hq p' hp' => ?_⟩
    rw [← Option.some.inj hp']
    exact hq

/-- a condition that can be decided at each step can be decided along a run -/
instance decidableAlong {G : Pool C ε α O σ → Act O X → Prop} [∀ p a, Decidable (G p a)] :
    ∀ (as : List (Act O X)) (p : Pool C ε α O σ), Decidable (Along h prog env G p as)
  | [], _ => isTrue trivial
  | a :: as, p =>
    have : Decidable ((act h prog env p a).elim True fun p' => Along h prog env G p' as) :=
      match act h prog env p a with
      | none => isTrue trivial
      | some p' => decidableAlong as p'
    decidable_of_iff' _ (along_cons h prog env)

/-- **Invariant rule**: kept by every step that meets the condition and takes an allowed action,
an invariant holds after the run. -/
theorem run_inv {G : Pool C ε α O σ → Act O X → Prop} {A : Act O X → Prop}
    {I : Pool C ε α O σ → Prop}
    (hstep : ∀ p a p', I p → G p a → A a → act h prog env p a = some p' → I p')
    {p p' : Pool C ε α O σ} {as : List (Act O X)} (hI : I p) (hG : Along h prog env G p as)
    (hA : ∀ a ∈ as, A a) (hr : run h prog env p as = some p') : I p' := by
  induction as generalizing p with
  | nil => cases hr; exact hI
  | cons a as ih =>
    obtain ⟨q, hq, hr'⟩ := Option.bind_eq_some_iff.mp hr
    exact ih (hstep p a q hI hG.1 (hA a (List.mem_cons_self ..)) hq) (hG.2 q hq)
      (fun b hb => hA b (List.mem_cons_of_mem _ hb)) hr'

/-- **Invariant rule** for an invariant that speaks of the steps so far -/
theorem run_history {I : List (Act O X) → Pool C ε α O σ → Prop}
    (hstep : ∀ as p a p', I as p → act h prog env p a = some p' → I (as ++ [a]) p')
    {p p' : Pool C ε α O σ} {bs as : List (Act O X)} (hI : I bs p)
    (hr : run h prog env p as = some p') : I (bs ++ as) p' := by
  induction as generalizing p bs with
  | nil =>
    cases hr
    rwa [List.append_nil]
  | cons a as ih =>
    obtain ⟨q, hq, hr'⟩ := Option.bind_eq_some_iff.mp hr
    have := ih (hstep bs p a q hI hq) hr'
    rwa [List.append_assoc] at this

/-! ## jobs that keep to their contracts -/

/-- every job keeps to the contract of its operation -/
def AllMeet (K : O → Contract C ε α) (p : Pool C ε α O σ) : Prop :=
  ∀ w j, p.jobs w = some j → Meets (K j.op) j.log j.rest

theorem allMeet_idle (K : O → Contract C ε α) (s : σ) :
    AllMeet K (Pool.idle s : Pool C ε α O σ) := by
  intro w j hj
  cases hj

/-- a step keeps the contracts when the store gives the replies they rely on -/
theorem allMeet_act {K : O → Contract C ε α} {p p' : Pool C ε α O σ} {a : Act O X}
    (hstart : ∀ o, Meets (K o) [] (prog o))
    (hreply : ∀ w j, p.jobs w = some j → ∀ (β : Type) (c : C β) k, j.rest = .call c k →
      (K j.op).reply j.log c (h _ c p.shared).1)
    (hM : AllMeet K p) (ha : act h prog env p a = some p') : AllMeet K p' := by
  intro v j' hj'
  rcases act_cases h prog env ha with ⟨w, o, rfl, -, rfl⟩ | ⟨w, j, β, c, k, rfl, hj, hr, rfl⟩ |
    ⟨w, j, r, rfl, -, -, rfl⟩ | ⟨x, rfl, rfl⟩
  · by_cases e : v = w
    · subst e
      rw [Pool.setJob_same] at hj'
      cases hj'
      exact hstart o
    · rw [Pool.setJob_other _ _ e] at hj'
      exact hM v j' hj'
  · by_cases e : v = w
    · subst e
      rw [Pool.setJob_same] at hj'
      cases hj'
      have hm := hM v j hj
      rw [hr] at hm
      exact hm.2 _ (hreply v j hj β c k hr)
    · rw [Pool.setJob_other _ _ e] at hj'
      exact hM v j' hj'
  · by_cases e : v = w
    · subst e
      rw [Pool.setJob_same] at hj'
      cases hj'
    · rw [Pool.setJob_other _ _ e] at hj'
      exact hM v j' hj'
  · exact hM v j' hj'

end

end Prog
