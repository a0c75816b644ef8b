import SecAudit.Prog.Once
import SecAudit.Prog.Pool

/-!
# Values made once: interleaved runs

Calls that keep to `Once.orderly`, in any interleaving in which they wait for a lock that is held.

* `Good`, `Good.step`  one call at most under a lock, one value at most in a cell;
* `run_good`        so it is in every run;
* `run_keeps`       a value that is there stays;
* `progress`        there is always a call that need not wait.
-/

set_option linter.unusedVariables false
set_option linter.unusedSectionVars false

namespace Once
open Prog

/-! ## one call under a lock, one value in a cell -/

section
variable {ι : Type} {V : ι → Type} {C : Type → Type} {ε α β σ : Type} [DecidableEq ι]
  {rank : ι → Nat}

/-- what holds of the store and the logs of the calls in progress -/
structure Good (s : Shared ι V σ) (L : Nat → Log (Cmd ι V C) ε) : Prop where
  held : ∀ i, s.held i = true ↔ ∃ w, phase i (L w) ≠ .outside
  alone : ∀ i w w', phase i (L w) ≠ .outside → phase i (L w') ≠ .outside → w = w'
  empty : ∀ i w, phase i (L w) = .empty → s.cells i = []
  seen : ∀ i v w, Seen i v (L w) → s.cells i = [v]
  short : ∀ i, (s.cells i).length ≤ 1

theorem not_seen_nil {i : ι} {v : V i} : ¬ Seen i v ([] : Log (Cmd ι V C) ε) :=
  fun ⟨_, he, _⟩ => List.not_mem_nil he

theorem Good.fresh (s : σ) : Good (Shared.fresh ι V s) (fun _ => ([] : Log (Cmd ι V C) ε)) where
  held i := iff_of_false Bool.false_ne_true fun ⟨_, h⟩ => h rfl
  alone i w w' h := absurd rfl h
  empty i w _ := rfl
  seen i v w h := absurd h not_seen_nil
  short i := Nat.zero_le _

variable {s : Shared ι V σ} {L : Nat → Log (Cmd ι V C) ε}

/-- a cell reads as what was seen of it -/
theorem Good.replies (h : Good s L) (hdl : Handler C ε σ) (w : Nat) (c : Cmd ι V C β) :
    replies (L w) c (handler hdl _ c s).1 := by
  cases c with
  | inr c => trivial
  | inl c =>
    cases c with
    | read i =>
      refine ⟨_, rfl, fun v hv => ?_⟩
      rw [h.seen i v w hv]
      rfl
    | write i v => rfl
    | acquire i => rfl
    | release i => rfl

/-- a call that is over, with no lock held -/
theorem Good.drop (h : Good s L) {w : Nat} (hw : ∀ i, phase i (L w) = .outside) :
    Good s (Function.update L w []) := by
  have hL : ∀ i v, phase i (Function.update L w [] v) = phase i (L v) := by
    intro i v
    by_cases hv : v = w
    · rw [hv, Function.update_self, hw]
      rfl
    · rw [Function.update_of_ne hv]
  refine ⟨fun i => ?_, fun i v v' => ?_, fun i v => ?_, fun i x v hx => ?_, h.short⟩
  · simp only [hL]
    exact h.held i
  · rw [hL, hL]
    exact h.alone i v v'
  · rw [hL]
    exact h.empty i v
  · by_cases hv : v = w
    · rw [hv, Function.update_self] at hx
      exact absurd hx not_seen_nil
    · rw [Function.update_of_ne hv] at hx
      exact h.seen i x v hx

/-- the logs with one more event of `w` -/
def logged (L : Nat → Log (Cmd ι V C) ε) (w : Nat) (e : Event (Cmd ι V C) ε) :
    Nat → Log (Cmd ι V C) ε := Function.update L w (e :: L w)

variable {w : Nat} {e : Event (Cmd ι V C) ε}

theorem logged_same : logged L w e w = e :: L w := Function.update_self ..

theorem logged_other {v : Nat} (h : v ≠ w) : logged L w e v = L v := Function.update_of_ne h ..

theorem seen_logged {i : ι} {x : V i} {v : Nat} (h : Seen i x (logged L w e v)) :
    shows i e = some x ∨ ∃ v, Seen i x (L v) := by
  by_cases hv : v = w
  · rw [hv, logged_same, seen_cons] at h
    exact h.imp_right fun h => ⟨w, h⟩
  · rw [logged_other hv] at h
    exact .inr ⟨v, h⟩

/-- an event that takes no lock and gives none back -/
theorem Good.kept (h : Good s L) {s' : Shared ι V σ} (hheld : s'.held = s.held)
    (hk : ∀ i, phase i (e :: L w) = .outside ↔ phase i (L w) = .outside)
    (hempty : ∀ i v, phase i (logged L w e v) = .empty → s'.cells i = [])
    (hseen : ∀ i x, (shows i e = some x ∨ ∃ v, Seen i x (L v)) → s'.cells i = [x])
    (hshort : ∀ i, (s'.cells i).length ≤ 1) : Good s' (logged L w e) := by
  have hL : ∀ i v, phase i (logged L w e v) ≠ .outside ↔ phase i (L v) ≠ .outside := by
    intro i v
    by_cases hv : v = w
    · rw [hv, logged_same]
      exact not_congr (hk i)
    · rw [logged_other hv]
  refine ⟨fun i => ?_, fun i v v' hv hv' => ?_, hempty, fun i x v hx => ?_, hshort⟩
  · rw [hheld, h.held]
    exact exists_congr fun v => (hL i v).symm
  · exact h.alone i v v' ((hL i v).mp hv) ((hL i v').mp hv')
  · exact hseen i x (seen_logged hx)

theorem Good.others (h : Good s L) (c : C β) (r : Except ε β) (rest : σ) :
    Good { s with rest := rest } (logged L w ⟨.inr c, r⟩) := by
  refine h.kept rfl (fun i => Iff.rfl) (fun i v hv => h.empty i v ?_) (fun i x hx => ?_) h.short
  · by_cases hw : v = w
    · rw [hw, logged_same] at hv
      rw [hw]
      exact hv
    · rwa [logged_other hw] at hv
  · rcases hx with hx | ⟨v, hx⟩
    · cases hx
    · exact h.seen i x v hx

theorem Good.read (h : Good s L) (i : ι) :
    Good s (logged L w ⟨.inl (.read i), .ok (s.cells i).head?⟩) := by
  refine h.kept rfl (fun j => phase_read j _ i _) (fun j v hv => ?_) (fun j x hx => ?_) h.short
  · by_cases hw : v = w
    · subst hw
      rw [logged_same] at hv
      by_cases hj : j = i
      · subst hj
        cases hc : s.cells j with
        | nil => rfl
        | cons x t =>
          rw [hc] at hv
          have := h.empty j v hv
          rw [hc] at this
          cases this
      · rw [phase_other j _ (.read i : Cell ι V (Option (V i))) _ hj] at hv
        exact h.empty j v hv
    · rw [logged_other hw] at hv
      exact h.empty j v hv
  · rcases hx with hx | ⟨v, hx⟩
    · by_cases hj : i = j
      · subst hj
        cases hc : s.cells i with
        | nil =>
          rw [hc] at hx
          cases hx
        | cons y t =>
          rw [hc, List.head?_cons, shows_read] at hx
          have hs := h.short i
          rw [hc, List.length_cons] at hs
          have ht : t = [] := List.length_eq_zero_iff.mp (by omega)
          rw [Option.some.inj hx, ht]
      · cases hc : s.cells i with
        | nil =>
          rw [hc] at hx
          cases hx
        | cons y t =>
          rw [hc, List.head?_cons] at hx
          rw [show shows j ⟨.inl (.read i), .ok (some y)⟩ = none from dif_neg hj] at hx
          cases hx
    · exact h.seen j x v hx

theorem Good.write (h : Good s L) (i : ι) (v : V i) (hi : phase i (L w) = .empty) :
    Good { s with cells := Function.update s.cells i (v :: s.cells i) }
      (logged L w ⟨.inl (.write i v), .ok ()⟩) := by
  have hnil := h.empty i w hi
  rw [hnil]
  refine h.kept rfl (fun j => ?_) (fun j u hu => ?_) (fun j x hx => ?_) fun j => ?_
  · by_cases hj : j = i
    · rw [hj, phase_write, hi]
      exact iff_of_false (by decide) (by decide)
    · rw [phase_other j _ (.write i v) _ hj]
  · by_cases hj : j = i
    · subst hj
      exfalso
      by_cases hw : u = w
      · rw [hw, logged_same, phase_write] at hu
        cases hu
      · rw [logged_other hw] at hu
        exact hw (h.alone j u w (by rw [hu]; decide) (by rw [hi]; decide))
    · dsimp only
      rw [Function.update_of_ne hj]
      by_cases hw : u = w
      · rw [hw, logged_same, phase_other j _ (.write i v) _ hj] at hu
        exact h.empty j w hu
      · rw [logged_other hw] at hu
        exact h.empty j u hu
  · dsimp only
    by_cases hj : i = j
    · subst hj
      rw [Function.update_self]
      rcases hx with hx | ⟨u, hx⟩
      · rw [shows_write] at hx
        rw [Option.some.inj hx]
      · rw [h.seen i x u hx] at hnil
        cases hnil
    · rw [Function.update_of_ne (Ne.symm hj)]
      rcases hx with hx | ⟨u, hx⟩
      · rw [show shows j ⟨.inl (.write i v), .ok ()⟩ = none from dif_neg hj] at hx
        cases hx
      · exact h.seen j x u hx
  · dsimp only
    by_cases hj : j = i
    · subst hj
      rw [Function.update_self]
      exact le_rfl
    · rw [Function.update_of_ne hj]
      exact h.short j

theorem Good.acquire (h : Good s L) (i : ι) (hfree : s.held i = false) :
    Good { s with held := Function.update s.held i true }
      (logged L w ⟨.inl (.acquire i), .ok ()⟩) := by
  have hnone : ∀ v, phase i (L v) = .outside := by
    intro v
    by_contra hv
    exact Bool.false_ne_true (hfree.symm.trans ((h.held i).mpr ⟨v, hv⟩))
  have hown : phase i (logged L w ⟨.inl (.acquire i), .ok ()⟩ w) = .inside := by
    rw [logged_same, phase_acquire]
  have hL : ∀ j v, ¬ (j = i ∧ v = w) →
      phase j (logged L w ⟨.inl (.acquire i), .ok ()⟩ v) = phase j (L v) := by
    intro j v hjv
    by_cases hv : v = w
    · subst hv
      rw [logged_same]
      exact phase_other j _ (.acquire i) _ fun hj => hjv ⟨hj, rfl⟩
    · rw [logged_other hv]
  refine ⟨fun j => ?_, fun j v v' hv hv' => ?_, fun j v hv => ?_, fun j x v hx => ?_, h.short⟩
  · dsimp only
    by_cases hj : j = i
    · subst hj
      rw [Function.update_self]
      exact iff_of_true rfl ⟨w, by rw [hown]; decide⟩
    · rw [Function.update_of_ne hj, h.held]
      exact exists_congr fun v => by rw [hL j v fun hjv => hj hjv.1]
  · by_cases hj : j = i
    · subst hj
      have hw : ∀ u, phase j (logged L w ⟨.inl (.acquire j), .ok ()⟩ u) ≠ .outside → u = w := by
        intro u hu
        by_contra hne
        rw [hL j u fun hjv => hne hjv.2] at hu
        exact hu (hnone u)
      rw [hw v hv, hw v' hv']
    · rw [hL j v fun hjv => hj hjv.1] at hv
      rw [hL j v' fun hjv => hj hjv.1] at hv'
      exact h.alone j v v' hv hv'
  · by_cases hjv : j = i ∧ v = w
    · obtain ⟨rfl, rfl⟩ := hjv
      rw [hown] at hv
      cases hv
    · rw [hL j v hjv] at hv
      exact h.empty j v hv
  · rcases seen_logged hx with hx | ⟨v, hx⟩
    · cases hx
    · exact h.seen j x v hx

theorem Good.release (h : Good s L) (i : ι) (hi : phase i (L w) ≠ .outside) :
    Good { s with held := Function.update s.held i false }
      (logged L w ⟨.inl (.release i), .ok ()⟩) := by
  have hnone : ∀ v, phase i (logged L w ⟨.inl (.release i), .ok ()⟩ v) = .outside := by
    intro v
    by_cases hv : v = w
    · rw [hv, logged_same, phase_release]
    · rw [logged_other hv]
      by_contra h'
      exact hv (h.alone i v w h' hi)
  have hL : ∀ j v, j ≠ i →
      phase j (logged L w ⟨.inl (.release i), .ok ()⟩ v) = phase j (L v) := by
    intro j v hj
    by_cases hv : v = w
    · subst hv
      rw [logged_same]
      exact phase_other j _ (.release i) _ hj
    · rw [logged_other hv]
  refine ⟨fun j => ?_, fun j v v' hv hv' => ?_, fun j v hv => ?_, fun j x v hx => ?_, h.short⟩
  · dsimp only
    by_cases hj : j = i
    · subst hj
      rw [Function.update_self]
      exact iff_of_false Bool.false_ne_true fun ⟨v, hv⟩ => hv (hnone v)
    · rw [Function.update_of_ne hj, h.held]
      exact exists_congr fun v => by rw [hL j v hj]
  · by_cases hj : j = i
    · subst hj
      exact absurd (hnone v) hv
    · rw [hL j v hj] at hv
      rw [hL j v' hj] at hv'
      exact h.alone j v v' hv hv'
  · by_cases hj : j = i
    · subst hj
      rw [hnone v] at hv
      cases hv
    · rw [hL j v hj] at hv
      exact h.empty j v hv
  · rcases seen_logged hx with hx | ⟨v, hx⟩
    · cases hx
    · exact h.seen j x v hx

/-- the lock a command takes -/
def takes : Cmd ι V C β → Option ι
  | .inl (.acquire i) => some i
  | _ => none

/-- a command that is issued as promised, and need not wait, keeps all this -/
theorem Good.step (h : Good s L) (hdl : Handler C ε σ) (c : Cmd ι V C β)
    (hi : issues rank (L w) c) (hfree : ∀ i, takes c = some i → s.held i = false) :
    Good (handler hdl _ c s).2 (logged L w ⟨c, (handler hdl _ c s).1⟩) := by
  cases c with
  | inr c => exact h.others c _ _
  | inl c =>
    cases c with
    | read i => exact h.read i
    | write i v => exact h.write i v hi
    | acquire i => exact h.acquire i (hfree i rfl)
    | release i => exact h.release i hi

end

/-! ## interleaved runs -/

section
variable {ι : Type} {V : ι → Type} {C : Type → Type} {ε α O X σ : Type} [DecidableEq ι]
  {rank : ι → Nat} {hdl : Handler C ε σ} {prog : O → Prog (Cmd ι V C) ε α} {env : X → σ → σ}
  {promise : O → Log (Cmd ι V C) ε → Except ε α → Prop}

/-- the environment acts on the rest -/
def onRest (env : X → σ → σ) (x : X) (s : Shared ι V σ) : Shared ι V σ :=
  { s with rest := env x s.rest }

/-- the lock that a program takes next -/
def asks : Prog (Cmd ι V C) ε α → Option ι
  | .call c _ => takes c
  | .done _ => none

/-- a call takes a lock only when it is free -/
def Waits (p : Pool (Cmd ι V C) ε α O (Shared ι V σ)) (a : Act O X) : Prop :=
  ∀ w j i, a = .step w → p.jobs w = some j → asks j.rest = some i → p.shared.held i = false

/-- the lock that the call of a worker takes next is free -/
def free (p : Pool (Cmd ι V C) ε α O (Shared ι V σ)) : Act O X → Bool
  | .step w => ((p.jobs w).bind fun j => asks j.rest).all fun i => !p.shared.held i
  | _ => true

theorem waits_iff {p : Pool (Cmd ι V C) ε α O (Shared ι V σ)} {a : Act O X} :
    free p a = true ↔ Waits p a := by
  cases a with
  | call w o => exact iff_of_true rfl fun v j i hv => by cases hv
  | ret w => exact iff_of_true rfl fun v j i hv => by cases hv
  | env x => exact iff_of_true rfl fun v j i hv => by cases hv
  | step w =>
    unfold free Waits
    rw [Option.all_eq_true]
    constructor
    · intro h v j i hv hj hi
      obtain rfl := Act.step.inj hv
      simpa using h i (by rw [hj]; exact hi)
    · intro h i hi
      obtain ⟨j, hj, hi⟩ := Option.bind_eq_some_iff.mp hi
      rw [h w j i rfl hj hi]
      rfl

instance decidableWaits (p : Pool (Cmd ι V C) ε α O (Shared ι V σ)) (a : Act O X) :
    Decidable (Waits p a) := decidable_of_iff _ waits_iff

/-- the log of the call of a worker -/
def logs (p : Pool (Cmd ι V C) ε α O (Shared ι V σ)) (w : Nat) : Log (Cmd ι V C) ε :=
  ((p.jobs w).map Job.log).getD []

theorem logs_setJob (p : Pool (Cmd ι V C) ε α O (Shared ι V σ)) (w : Nat)
    (j : Option (Job (Cmd ι V C) ε α O)) :
    logs (p.setJob w j) = Function.update (logs p) w ((j.map Job.log).getD []) := by
  funext v
  unfold logs
  by_cases hv : v = w
  · rw [hv, Pool.setJob_same, Function.update_self]
  · rw [Pool.setJob_other _ _ hv, Function.update_of_ne hv]

theorem logs_of {p : Pool (Cmd ι V C) ε α O (Shared ι V σ)} {w : Nat}
    {j : Job (Cmd ι V C) ε α O} (hj : p.jobs w = some j) : logs p w = j.log := by
  unfold logs
  rw [hj]
  rfl

/-- each call keeps to its promise, and the store and the logs are good -/
structure Kept (rank : ι → Nat) (promise : O → Log (Cmd ι V C) ε → Except ε α → Prop)
    (p : Pool (Cmd ι V C) ε α O (Shared ι V σ)) : Prop where
  meets : AllMeet (fun o => orderly rank (promise o)) p
  good : Good p.shared (logs p)

variable (hprog : ∀ o, Meets (orderly rank (promise o)) [] (prog o))
include hprog

theorem Kept.act {p p' : Pool (Cmd ι V C) ε α O (Shared ι V σ)} {a : Act O X}
    (h : Kept rank promise p) (hw : Waits p a)
    (ha : Prog.act (handler hdl) prog (onRest env) p a = some p') : Kept rank promise p' := by
  refine ⟨allMeet_act _ _ _ hprog (fun w j hj β c k hc => ?_) h.meets ha, ?_⟩
  · rw [← logs_of hj]
    exact h.good.replies hdl w c
  rcases act_cases _ _ _ ha with ⟨w, o, rfl, hj, rfl⟩ | ⟨w, j, β, c, k, rfl, hj, hc, rfl⟩ |
    ⟨w, j, r, rfl, hj, hr, rfl⟩ | ⟨x, rfl, rfl⟩
  · rw [logs_setJob]
    refine h.good.drop fun i => ?_
    unfold logs
    rw [hj]
    rfl
  · have hm := h.meets w j hj
    rw [hc, ← logs_of hj] at hm
    rw [logs_setJob]
    have hstep := h.good.step (w := w) hdl c hm.1 fun i hi =>
      hw w j i rfl hj (by rw [hc]; exact hi)
    rw [show ((some (j.after c (handler hdl _ c p.shared).1
      (k (handler hdl _ c p.shared).1))).map Job.log).getD [] =
        ⟨c, (handler hdl _ c p.shared).1⟩ :: logs p w from by rw [logs_of hj]; rfl]
    exact hstep
  · have hm := h.meets w j hj
    rw [hr, ← logs_of hj] at hm
    rw [logs_setJob]
    exact h.good.drop hm.1
  · exact ⟨h.good.held, h.good.alone, h.good.empty, h.good.seen, h.good.short⟩

/-- **in every interleaved run** in which the calls wait for the locks -/
theorem run_good {p : Pool (Cmd ι V C) ε α O (Shared ι V σ)} {as : List (Act O X)} {s : σ}
    (hw : Along (handler hdl) prog (onRest env) Waits (Pool.idle (Shared.fresh ι V s)) as)
    (hr : run (handler hdl) prog (onRest env) (Pool.idle (Shared.fresh ι V s)) as = some p) :
    Kept rank promise p :=
  run_inv (A := fun _ => True) _ _ _ (fun p a p' h hw _ ha => h.act hprog hw ha)
    ⟨allMeet_idle _ _, Good.fresh s⟩ hw (fun _ _ => trivial) hr

omit hprog in
/-- a value that is there stays -/
theorem cells_act {p p' : Pool (Cmd ι V C) ε α O (Shared ι V σ)} {a : Act O X} {i : ι} {v : V i}
    (hv : v ∈ p.shared.cells i)
    (ha : Prog.act (handler hdl) prog (onRest env) p a = some p') : v ∈ p'.shared.cells i := by
  rcases act_cases _ _ _ ha with ⟨w, o, rfl, hj, rfl⟩ | ⟨w, j, β, c, k, rfl, hj, hc, rfl⟩ |
    ⟨w, j, r, rfl, hj, hr, rfl⟩ | ⟨x, rfl, rfl⟩
  · exact hv
  · rw [Pool.setJob_shared]
    cases c with
    | inr c => exact hv
    | inl c =>
      cases c with
      | write i' v' =>
        show v ∈ Function.update p.shared.cells i' (v' :: p.shared.cells i') i
        by_cases hi : i = i'
        · subst hi
          rw [Function.update_self]
          exact List.mem_cons_of_mem _ hv
        · rw [Function.update_of_ne hi]
          exact hv
      | read i' => exact hv
      | acquire i' => exact hv
      | release i' => exact hv
  · exact hv
  · exact hv

theorem run_kept {p p' : Pool (Cmd ι V C) ε α O (Shared ι V σ)} {as : List (Act O X)}
    (h : Kept rank promise p) (hw : Along (handler hdl) prog (onRest env) Waits p as)
    (hr : run (handler hdl) prog (onRest env) p as = some p') : Kept rank promise p' :=
  run_inv (A := fun _ => True) _ _ _ (fun p a p' h hw _ ha => h.act hprog hw ha) h hw
    (fun _ _ => trivial) hr

theorem run_keeps {p p' : Pool (Cmd ι V C) ε α O (Shared ι V σ)} {as : List (Act O X)} {i : ι}
    {v : V i} (h : Kept rank promise p) (hv : p.shared.cells i = [v])
    (hw : Along (handler hdl) prog (onRest env) Waits p as)
    (hr : run (handler hdl) prog (onRest env) p as = some p') : p'.shared.cells i = [v] := by
  have hmem : v ∈ p'.shared.cells i :=
    run_inv (I := fun p => v ∈ p.shared.cells i) (A := fun _ => True) _ _ _
      (fun p a p' h _ _ ha => cells_act h ha) (hv ▸ List.mem_singleton_self v) hw
      (fun _ _ => trivial) hr
  have hshort := (run_kept hprog h hw hr).good.short i
  cases hc : p'.shared.cells i with
  | nil =>
    rw [hc] at hmem
    cases hmem
  | cons x t =>
    rw [hc, List.length_cons] at hshort
    obtain rfl : t = [] := List.length_eq_zero_iff.mp (by omega)
    rw [hc] at hmem
    rw [List.mem_singleton.mp hmem]

omit hprog

/-! ## no call waits for ever -/

/-- a call in progress goes on, or is over -/
def Moves (hdl : Handler C ε σ) (prog : O → Prog (Cmd ι V C) ε α) (env : X → σ → σ)
    (p : Pool (Cmd ι V C) ε α O (Shared ι V σ)) : Prop :=
  ∃ (w : Nat) (a : Act O X) (p' : Pool (Cmd ι V C) ε α O (Shared ι V σ)), (a = .step w ∨ a = .ret w) ∧
    Waits p a ∧ act (handler hdl) prog (onRest env) p a = some p'

theorem moves_of {p : Pool (Cmd ι V C) ε α O (Shared ι V σ)} {w : Nat} {j : Job (Cmd ι V C) ε α O}
    (hj : p.jobs w = some j) (hfree : ∀ i, asks j.rest = some i → p.shared.held i = false) :
    Moves hdl prog env p := by
  cases hc : j.rest with
  | done r =>
    have ha : act (handler hdl) prog (onRest env) p (.ret w) = some (p.setJob w none) := by
      simp only [act, hj, hc]
    have hw : Waits p (.ret w : Act O X) := fun v j' i hv => by cases hv
    exact ⟨w, .ret w, _, .inr rfl, hw, ha⟩
  | call c k =>
    refine ⟨w, .step w, _, .inl rfl, fun v j' i hv hj' hi => ?_, by simp only [act, hj, hc]; rfl⟩
    obtain rfl := Act.step.inj hv
    rw [hj] at hj'
    obtain rfl := Option.some.inj hj'
    exact hfree i hi

/-- a lock is taken below those that are held -/
theorem rank_asks {o : O} {l : Log (Cmd ι V C) ε} {q : Prog (Cmd ι V C) ε α}
    (hm : Meets (orderly rank (promise o)) l q) {i : ι} (hi : asks q = some i) {j : ι}
    (hj : phase j l ≠ .outside) : rank i < rank j := by
  cases q with
  | done r => cases hi
  | call c k =>
    cases c with
    | inr c => cases hi
    | inl c =>
      cases c with
      | read i' => cases hi
      | write i' v => cases hi
      | release i' => cases hi
      | acquire i' =>
        obtain rfl : i' = i := Option.some.inj hi
        exact hm.1 j hj

/-- while a lock is held, the call under the one of least rank need not wait -/
theorem moves_held {p : Pool (Cmd ι V C) ε α O (Shared ι V σ)} (h : Kept rank promise p) (n : Nat) :
    ∀ i, rank i = n → p.shared.held i = true → Moves hdl prog env p := by
  induction n using Nat.strong_induction_on with
  | _ n ih =>
    intro i hn hheld
    obtain ⟨w, hw⟩ := (h.good.held i).mp hheld
    cases hj : p.jobs w with
    | none =>
      unfold logs at hw
      rw [hj] at hw
      exact absurd rfl hw
    | some j =>
      rw [logs_of hj] at hw
      cases ha : asks j.rest with
      | none => exact moves_of hj fun i' hi' => by rw [ha] at hi'; cases hi'
      | some i' =>
        cases hheld' : p.shared.held i' with
        | false =>
          refine moves_of hj fun i'' hi' => ?_
          rw [ha] at hi'
          rw [← Option.some.inj hi', hheld']
        | true => exact ih _ (hn ▸ rank_asks (h.meets w j hj) ha hw) i' rfl hheld'

/-- **some call can always go on**, as long as one is in progress -/
theorem progress {p : Pool (Cmd ι V C) ε α O (Shared ι V σ)} (h : Kept rank promise p) {w : Nat}
    {j : Job (Cmd ι V C) ε α O} (hj : p.jobs w = some j) : Moves hdl prog env p := by
  by_cases hheld : ∃ i, p.shared.held i = true
  · obtain ⟨i, hi⟩ := hheld
    exact moves_held h (rank i) i rfl hi
  · refine moves_of hj fun i _ => ?_
    by_contra hi
    exact hheld ⟨i, by simpa using hi⟩

end

end Once
