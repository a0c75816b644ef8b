import SecAudit.Prog.Only
import SecAudit.Prog.Pool

/-!
# What a program may do

Whatever the replies are, within what is known of them.

* `Prog.Steps`      `p` does the commands of a list, gets the replies there, and comes to `q`;
* `Prog.Does`       the same to the end, with an outcome;
* `does_attempt`, `does_bind`, `does_perform`  the parts of a program, put together;
* `Steps.only`      what was done is among what can be issued;
* `Steps.of_trace`  so does a program that runs alone;
* `run_steps`       and each call of an interleaved run.
-/

set_option linter.unusedVariables false

namespace Prog

section
variable {C : Type → Type} {ε α β σ : Type}

/-- what is known of the replies -/
abbrev Replies (C : Type → Type) (ε : Type) := (β : Type) → C β → Except ε β → Prop

inductive Steps (R : Replies C ε) : Prog C ε α → List (Event C ε) → Prog C ε α → Prop
  | refl (p : Prog C ε α) : Steps R p [] p
  | cons {γ : Type} {c : C γ} {k : Except ε γ → Prog C ε α} {r : Except ε γ}
      {t : List (Event C ε)} {q : Prog C ε α} :
      R γ c r → Steps R (k r) t q → Steps R (.call c k) (⟨c, r⟩ :: t) q

/-- the commands of a whole run, the first first, and its outcome -/
def Does (R : Replies C ε) (p : Prog C ε α) (t : List (Event C ε)) (r : Except ε α) : Prop :=
  Steps R p t (.done r)

variable {R : Replies C ε} {p q : Prog C ε α} {t : List (Event C ε)}

theorem Steps.snoc {γ : Type} {c : C γ} {k : Except ε γ → Prog C ε α} {r : Except ε γ}
    (h : Steps R p t (.call c k)) (hr : R γ c r) : Steps R p (t ++ [⟨c, r⟩]) (k r) := by
  generalize hq : Prog.call c k = q at h
  induction h with
  | refl p =>
    subst hq
    exact .cons hr (.refl _)
  | cons hr' _ ih => exact .cons hr' (ih hq)

theorem does_done {r r' : Except ε α} : Does R (.done r) t r' ↔ t = [] ∧ r' = r := by
  constructor
  · intro h
    cases h
    exact ⟨rfl, rfl⟩
  · rintro ⟨rfl, rfl⟩
    exact .refl _

theorem does_call {γ : Type} {c : C γ} {k : Except ε γ → Prog C ε α} {r' : Except ε α} :
    Does R (.call c k) t r' ↔ ∃ r t', R γ c r ∧ t = ⟨c, r⟩ :: t' ∧ Does R (k r) t' r' := by
  constructor
  · intro h
    cases h with
    | cons hr h => exact ⟨_, _, hr, rfl, h⟩
  · rintro ⟨r, t', hr, rfl, h⟩
    exact .cons hr h

theorem does_perform {c : C α} {r : Except ε α} :
    Does R (perform c) t r ↔ R α c r ∧ t = [⟨c, r⟩] := by
  unfold perform
  rw [does_call]
  constructor
  · rintro ⟨r', t', hr, rfl, h⟩
    obtain ⟨rfl, rfl⟩ := does_done.mp h
    exact ⟨hr, rfl⟩
  · rintro ⟨hr, rfl⟩
    exact ⟨r, [], hr, rfl, does_done.mpr ⟨rfl, rfl⟩⟩

theorem does_attempt {f : Except ε α → Prog C ε β} {r : Except ε β} :
    Does R (p.attempt f) t r ↔ ∃ t₁ r₁ t₂, Does R p t₁ r₁ ∧ Does R (f r₁) t₂ r ∧ t = t₁ ++ t₂ := by
  induction p generalizing t with
  | done r₁ =>
    constructor
    · exact fun h => ⟨[], r₁, t, .refl _, h, rfl⟩
    · rintro ⟨t₁, r', t₂, h, hf, rfl⟩
      obtain ⟨rfl, rfl⟩ := does_done.mp h
      exact hf
  | call c k ih =>
    show Does R (.call c _) t r ↔ _
    rw [does_call]
    constructor
    · rintro ⟨r', t', hr, rfl, h⟩
      obtain ⟨t₁, r₁, t₂, h₁, h₂, rfl⟩ := (ih r').mp h
      exact ⟨_, r₁, t₂, .cons hr h₁, h₂, rfl⟩
    · rintro ⟨t₁, r₁, t₂, h, hf, rfl⟩
      obtain ⟨r', t', hr, rfl, h'⟩ := does_call.mp h
      exact ⟨r', _, hr, rfl, (ih r').mpr ⟨t', r₁, t₂, h', hf, rfl⟩⟩

theorem does_bind {f : α → Prog C ε β} {r : Except ε β} : Does R (p >>= f) t r ↔
    (∃ t₁ a t₂, Does R p t₁ (.ok a) ∧ Does R (f a) t₂ r ∧ t = t₁ ++ t₂) ∨
      ∃ e, Does R p t (.error e) ∧ r = .error e := by
  rw [bind_def, does_attempt]
  constructor
  · rintro ⟨t₁, r₁, t₂, h, hf, rfl⟩
    cases r₁ with
    | ok a => exact .inl ⟨t₁, a, t₂, h, hf, rfl⟩
    | error e =>
      obtain ⟨rfl, rfl⟩ := does_done.mp hf
      rw [List.append_nil]
      exact .inr ⟨e, h, rfl⟩
  · rintro (⟨t₁, a, t₂, h, hf, rfl⟩ | ⟨e, h, rfl⟩)
    · exact ⟨t₁, .ok a, t₂, h, hf, rfl⟩
    · exact ⟨t, .error e, [], h, does_done.mpr ⟨rfl, rfl⟩, (List.append_nil t).symm⟩

/-- what a program has done is among what it can issue -/
theorem Steps.only {P : (β : Type) → C β → Prop} (h : Steps R p t q) (hp : Only P p) :
    ∀ x ∈ t, P x.β x.cmd := by
  induction h with
  | refl p => exact fun x hx => absurd hx List.not_mem_nil
  | cons _ _ ih => exact List.forall_mem_cons.mpr ⟨hp.1, ih (hp.2 _)⟩

/-- a program that runs alone, against a store that replies as is known -/
theorem Steps.of_trace {h : Handler C ε σ} (hR : ∀ β (c : C β) s, R β c (h β c s).1)
    (p : Prog C ε α) (s : σ) : Does R p (trace h p s) (exec h p s).1 := by
  induction p generalizing s with
  | done r => exact .refl _
  | call c k ih => exact .cons (hR _ c s) (ih _ _)

variable {O X : Type} {h : Handler C ε σ} {prog : O → Prog C ε α} {env : X → σ → σ}

/-- **the calls of an interleaved run**: each has come to where its log says -/
theorem run_steps (hR : ∀ β (c : C β) s, R β c (h β c s).1) {s : σ} {as : List (Act O X)}
    {p : Pool C ε α O σ} (hr : run h prog env (Pool.idle s) as = some p) :
    ∀ w j, p.jobs w = some j → Steps R (prog j.op) j.log.reverse j.rest := by
  refine @run_history C ε α O X σ h prog env (fun _ p => ∀ w j, p.jobs w = some j →
    Steps R (prog j.op) j.log.reverse j.rest) ?_ _ _ [] _ (fun w j hj => by cases hj) hr
  intro as p a p' hI ha w j hj
  rcases act_cases h prog env ha with ⟨v, o, rfl, -, rfl⟩ | ⟨v, j₁, β, c, k, rfl, hj₁, hc, rfl⟩ |
    ⟨v, j₁, r, rfl, -, -, rfl⟩ | ⟨x, rfl, rfl⟩
  · by_cases hw : w = v
    · subst hw
      rw [Pool.setJob_same] at hj
      cases hj
      exact .refl _
    · rw [Pool.setJob_other _ _ hw] at hj
      exact hI w j hj
  · by_cases hw : w = v
    · subst hw
      rw [Pool.setJob_same] at hj
      cases hj
      have := hI w j₁ hj₁
      rw [hc] at this
      show Steps R (prog j₁.op) (_ :: j₁.log).reverse _
      rw [List.reverse_cons]
      exact this.snoc (hR _ _ _)
    · rw [Pool.setJob_other _ _ hw] at hj
      exact hI w j hj
  · by_cases hw : w = v
    · subst hw
      rw [Pool.setJob_same] at hj
      cases hj
    · rw [Pool.setJob_other _ _ hw] at hj
      exact hI w j hj
  · exact hI w j hj

end

end Prog
