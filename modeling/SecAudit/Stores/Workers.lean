import SecAudit.Stores.Banned

/-!
# Several workers

Workers that share both backends, one backend command a step, with time passing and keys dropped in
between.

* `Workers`, `Turn`, `turns`  the workers, their steps and their runs;
* `Sane`, `sane_act`  what holds in every run while no backend fails;
* `StepMeets`         a condition on the next command of whoever makes the step;
* `At`, `at_act`      a worker that is at a read which keeps to its contract;
* `stepMeets_iff`     such a condition read off the step, so that it can be decided.
-/

set_option linter.unusedVariables false
set_option linter.unusedSectionVars false

namespace SecAudit
open Py Prog

abbrev Workers := Pool Cmd Exc Answer Op World

abbrev Turn := Act Op Env

section
variable (b : Builtins) (st : TieredBlockStore)

/-- one step of the workers -/
abbrev turn (p : Workers) (a : Turn) : Option Workers := act backend (Op.prog b st) Env.apply p a

/-- a run of the workers -/
abbrev turns (p : Workers) (as : List Turn) : Option Workers :=
  run backend (Op.prog b st) Env.apply p as

/-- `G` holds at every step -/
abbrev AllTurns (G : Workers → Turn → Prop) (p : Workers) (as : List Turn) : Prop :=
  Along backend (Op.prog b st) Env.apply G p as

/-- what holds in every run, while no backend fails -/
structure Sane (p : Workers) : Prop where
  world : Agrees b (.base st) p.shared
  quiet : p.shared.faults = []
  jobs : AllMeet (fun o => o.contract b st True) p

end

section
variable {b : Builtins} {st : TieredBlockStore} {p p' : Workers} {a : Turn}

theorem sane_idle (t : Int) : Sane b st (Pool.idle (World.empty t)) where
  world := ⟨fun r hr => absurd hr List.not_mem_nil, nofun,
    fun r hr => absurd hr List.not_mem_nil, nofun, nofun⟩
  quiet := rfl
  jobs := allMeet_idle _ _

/-- the command a job issues next is one of its operation -/
theorem Sane.issue (h : Sane b st p) {w : Nat} {j : Job Cmd Exc Answer Op} (hj : p.jobs w = some j)
    {β : Type} {c : Cmd β} {k : Except Exc β → Call Answer} (hr : j.rest = .call c k) :
    j.op.Issue b st j.log c := by
  have := h.jobs w j hj
  rw [hr] at this
  exact this.1

theorem Env.faults (x : Env) (w : World) : (x.apply w).faults = w.faults := by
  cases x <;> rfl

theorem Env.table (x : Env) (w : World) : (x.apply w).table = w.table := by
  cases x <;> rfl

/-- **one step keeps it** -/
theorem sane_act (hpg : st.pg = true) (h : Sane b st p) (ha : turn b st p a = some p') :
    Sane b st p' := by
  have hf : p.shared.fault = none := by
    unfold World.fault
    rw [h.quiet]
    rfl
  have hjobs := allMeet_act backend (Op.prog b st) Env.apply (fun o => trace_op hpg o)
    (fun w j hj β c k hr => base_reply h.world fun _ => hf) h.jobs ha
  rcases act_cases _ _ _ ha with ⟨w, o, rfl, -, rfl⟩ | ⟨w, j, β, c, k, rfl, hj, hr, rfl⟩ |
    ⟨w, j, r, rfl, -, -, rfl⟩ | ⟨x, rfl, rfl⟩
  · exact ⟨h.world, h.quiet, hjobs⟩
  · exact ⟨h.world.step (base_keeps (h.issue hj hr)), backend_quiet h.quiet c, hjobs⟩
  · exact ⟨h.world, h.quiet, hjobs⟩
  · exact ⟨h.world.env x, (x.faults _).trans h.quiet, hjobs⟩

/-- the jobs after a job of `w` was put there -/
theorem job_cases {w v : Nat} {q : Workers} {x : Option (Job Cmd Exc Answer Op)}
    {j : Job Cmd Exc Answer Op} (h : (q.setJob w x).jobs v = some j) :
    (v = w ∧ x = some j) ∨ (v ≠ w ∧ q.jobs v = some j) := by
  by_cases e : v = w
  · subst e
    rw [Pool.setJob_same] at h
    exact .inl ⟨rfl, h⟩
  · rw [Pool.setJob_other _ _ e] at h
    exact .inr ⟨e, h⟩

end

/-! ## conditions on a step -/

/-- a step of which `P` holds, with the worker that makes it -/
def StepMeets (P : Nat → Workers → Job Cmd Exc Answer Op → {β : Type} → Cmd β → Prop) (p : Workers)
    (a : Turn) : Prop :=
  ∀ w j, a = .step w → p.jobs w = some j → ∀ (β : Type) (c : Cmd β) (k : Except Exc β → Call Answer),
    j.rest = .call c k → P w p j c

/-- the result of the call of worker `v`, once it has returned -/
def Workers.result (p : Workers) (v : Nat) : Option (Except Exc Answer) :=
  (p.jobs v).bind fun j => match j.rest with
    | .done r => some r
    | .call _ _ => none

/-- the operation worker `v` is at -/
def Workers.op (p : Workers) (v : Nat) : Option Op := (p.jobs v).map Job.op

theorem result_some {p : Workers} {v : Nat} {r : Except Exc Answer} (h : p.result v = some r) :
    ∃ j, p.jobs v = some j ∧ j.rest = .done r := by
  obtain ⟨j, hj, hr⟩ := Option.bind_eq_some_iff.mp h
  refine ⟨j, hj, ?_⟩
  rcases hx : j.rest with r' | ⟨c, k⟩
  · rw [hx] at hr
    rw [Option.some.inj hr]
  · rw [hx] at hr
    cases hr

theorem op_some {p : Workers} {v : Nat} {o : Op} (h : p.op v = some o) :
    ∃ j, p.jobs v = some j ∧ j.op = o := Option.map_eq_some_iff.mp h

section
variable {b : Builtins} {st : TieredBlockStore} {w : Nat} {o : Op} {p p' : Workers}

/-- a worker that starts a call was idle, and is at the call then -/
theorem op_start (ha : turn b st p (.call w o) = some p') :
    p.jobs w = none ∧ p'.op w = some o := by
  rcases act_cases _ _ _ ha with ⟨w', o', e, hn, rfl⟩ | ⟨w', j, β, c, k, e, -, -, -⟩ |
    ⟨w', j, r', e, -, -, -⟩ | ⟨y, e, -⟩
  · cases e
    refine ⟨hn, ?_⟩
    unfold Workers.op
    rw [Pool.setJob_same]
    rfl
  · cases e
  · cases e
  · cases e

/-- it stays at the call until it hands its result back -/
theorem op_act {a : Turn} (h : p.op w = some o) (hw : a ≠ .ret w)
    (ha : turn b st p a = some p') : p'.op w = some o := by
  obtain ⟨j, hj, rfl⟩ := op_some h
  unfold Workers.op
  rcases act_cases _ _ _ ha with ⟨u, o', rfl, hn, rfl⟩ | ⟨u, j', β, c, k, rfl, hj', -, rfl⟩ |
    ⟨u, j', r, rfl, -, -, rfl⟩ | ⟨x, rfl, rfl⟩
  · have e : w ≠ u := by
      rintro rfl
      rw [hn] at hj
      cases hj
    rw [Pool.setJob_other _ _ e, hj]
    rfl
  · by_cases e : w = u
    · subst e
      obtain rfl : j' = j := Option.some.inj (hj'.symm.trans hj)
      rw [Pool.setJob_same]
      rfl
    · rw [Pool.setJob_other _ _ e]
      exact congrArg _ hj
  · have e : w ≠ u := fun e => hw (congrArg Act.ret e.symm)
    rw [Pool.setJob_other _ _ e]
    exact congrArg _ hj
  · exact congrArg _ hj

/-- **a call that has not been handed back** is the one that was started -/
theorem op_run {as : List Turn} (h : turns b st p (.call w o :: as) = some p')
    (hw : Act.ret w ∉ as) : p'.op w = some o := by
  obtain ⟨q, hq, h⟩ := Option.bind_eq_some_iff.mp h
  exact run_inv backend (Op.prog b st) Env.apply (G := fun _ _ => True)
    (A := fun a => a ≠ Act.ret w) (I := fun p => Workers.op p w = some o)
    (fun p a p' hI _ hA ha => op_act hI hA ha) (op_start hq).2 (along_true _ _ _ _ _)
    (fun a ha e => hw (e ▸ ha)) h

end

/-! ## a worker at a read -/

/-- worker `v` is at a read that keeps to its contract -/
def At (b : Builtins) {st : TieredBlockStore} (F : Facts st)
    (Q : CallLog → Except Exc Answer → Prop) (v : Nat) (p : Workers) : Prop :=
  ∃ j, p.jobs v = some j ∧ Meets (reads b F Q) j.log j.rest

section
variable {b : Builtins} {st : TieredBlockStore} {F : Facts st}
  {Q : CallLog → Except Exc Answer → Prop} {v : Nat} {p p' : Workers} {a : Turn}

theorem at_start {q : Op} (hq : Meets (reads b F Q) [] (q.prog b st))
    (ha : turn b st p (.call v q) = some p') : At b F Q v p' := by
  rcases act_cases _ _ _ ha with ⟨v', q', e, -, rfl⟩ | ⟨v', j, β, c, k, e, -, -, -⟩ |
    ⟨v', j, r', e, -, -, -⟩ | ⟨y, e, -⟩
  · cases e
    exact ⟨_, Pool.setJob_same .., hq⟩
  · cases e
  · cases e
  · cases e

/-- **it stays at it**, when the backend replies as the contract relies on -/
theorem at_act (h : At b F Q v p) (hv : a ≠ .ret v)
    (hreply : StepMeets (fun w p j _ c => w = v → (reads b F Q).issue j.log c →
      (reads b F Q).reply j.log c (backend _ c p.shared).1) p a)
    (ha : turn b st p a = some p') : At b F Q v p' := by
  obtain ⟨j, hj, hm⟩ := h
  rcases act_cases _ _ _ ha with ⟨w, o, rfl, hn, rfl⟩ | ⟨w, j', β, c, k, rfl, hj', hr, rfl⟩ |
    ⟨w, j', r, rfl, -, -, rfl⟩ | ⟨x, rfl, rfl⟩
  · have e : v ≠ w := by
      rintro rfl
      rw [hn] at hj
      cases hj
    exact ⟨j, (Pool.setJob_other _ _ e).trans hj, hm⟩
  · by_cases e : v = w
    · subst e
      obtain rfl : j' = j := Option.some.inj (hj'.symm.trans hj)
      rw [hr] at hm
      exact ⟨_, Pool.setJob_same .., hm.2 _ (hreply v j' rfl hj' β c k hr rfl hm.1)⟩
    · exact ⟨j, (Pool.setJob_other _ _ e).trans hj, hm⟩
  · have e : v ≠ w := fun e => hv (congrArg Act.ret e.symm)
    exact ⟨j, (Pool.setJob_other _ _ e).trans hj, hm⟩
  · exact ⟨j, hj, hm⟩

theorem At.result (h : At b F Q v p) {r : Except Exc Answer} (hr : p.result v = some r) :
    ∃ l, Q l r := by
  obtain ⟨j, hj, hm⟩ := h
  obtain ⟨j', hj', hdone⟩ := result_some hr
  obtain rfl : j' = j := Option.some.inj (hj'.symm.trans hj)
  rw [hdone] at hm
  exact ⟨_, hm⟩

end

/-! ## runs on fixed inputs -/

/-- `P` of the next command of a job -/
def nextHolds (P : Job Cmd Exc Answer Op → {β : Type} → Cmd β → Prop) :
    Option (Job Cmd Exc Answer Op) → Prop
  | some ⟨o, l, .call c k⟩ => P ⟨o, l, .call c k⟩ c
  | _ => True

/-- what `StepMeets` asks for, read off the step -/
def stepHolds (P : Nat → Workers → Job Cmd Exc Answer Op → {β : Type} → Cmd β → Prop) (p : Workers) :
    Turn → Prop
  | .step w => nextHolds (P w p) (p.jobs w)
  | _ => True

section
variable {P : Nat → Workers → Job Cmd Exc Answer Op → {β : Type} → Cmd β → Prop} {p : Workers}
  {a : Turn}

theorem stepMeets_iff : StepMeets P p a ↔ stepHolds P p a := by
  constructor
  · intro h
    cases a with
    | step w =>
      show nextHolds (P w p) (p.jobs w)
      rcases hj : p.jobs w with _ | ⟨o, l, r | ⟨c, k⟩⟩
      · trivial
      · trivial
      · exact h w _ rfl hj _ c k rfl
    | call w o => trivial
    | ret w => trivial
    | env x => trivial
  · rintro h w ⟨o, l, rest⟩ rfl hj β c k rfl
    replace h : nextHolds (P w p) (p.jobs w) := h
    rw [hj] at h
    exact h

instance [h : ∀ w p j {β : Type} (c : Cmd β), Decidable (P w p j c)] :
    Decidable (stepHolds P p a) :=
  match a with
  | .step w => match hj : p.jobs w with
    | some ⟨o, l, .call c k⟩ => decidable_of_iff (P w p ⟨o, l, .call c k⟩ c) (by
        show _ ↔ nextHolds (P w p) (p.jobs w)
        rw [hj]
        exact Iff.rfl)
    | some ⟨o, l, .done r⟩ => isTrue (by
        show nextHolds (P w p) (p.jobs w)
        rw [hj]
        trivial)
    | none => isTrue (by
        show nextHolds (P w p) (p.jobs w)
        rw [hj]
        trivial)
  | .call w o => isTrue trivial
  | .ret w => isTrue trivial
  | .env x => isTrue trivial

instance [∀ w p j {β : Type} (c : Cmd β), Decidable (P w p j c)] : Decidable (StepMeets P p a) :=
  decidable_of_iff' _ stepMeets_iff

end

/-- the call of worker `v` returned an answer of which `ok` holds -/
def returnedBy (p : Option Workers) (v : Nat) (ok : Answer → Bool) : Bool :=
  match p.bind fun p => p.result v with
  | some (.ok x) => ok x
  | _ => false

theorem of_returnedBy {p : Option Workers} {v : Nat} {ok : Answer → Bool}
    (h : returnedBy p v ok = true) : ∃ q x, p = some q ∧ q.result v = some (.ok x) ∧ ok x = true := by
  unfold returnedBy at h
  split at h
  · rename_i x hx
    obtain ⟨q, hq, hr⟩ := Option.bind_eq_some_iff.mp hx
    exact ⟨q, x, hq, hr, h⟩
  · cases h

/-- worker `v` is at an operation of which `ok` holds -/
def opBy (p : Option Workers) (v : Nat) (ok : Op → Bool) : Bool :=
  match p.bind fun p => p.op v with
  | some o => ok o
  | none => false

theorem of_opBy {p : Workers} {v : Nat} {ok : Op → Bool} (h : opBy (some p) v ok = true) :
    ∃ o, p.op v = some o ∧ ok o = true := by
  unfold opBy at h
  split at h
  · rename_i o ho
    exact ⟨o, ho, h⟩
  · cases h

def Answer.isNone : Answer → Bool
  | .found none => true
  | _ => false

theorem Answer.of_isNone {x : Answer} (h : x.isNone = true) : x = .found none := by
  unfold Answer.isNone at h
  split at h
  · rfl
  · cases h

def Op.gets (s : BlockScope) : Op → Bool
  | .getActive s' => decide (s' = s)
  | _ => false

theorem Op.of_gets {s : BlockScope} {o : Op} (h : o.gets s = true) : o = .getActive s := by
  unfold Op.gets at h
  split at h
  · rw [of_decide_eq_true h]
  · cases h

end SecAudit
