import SecAudit.Prog.Only

/-!
# Values made once, under a lock

Each cell holds a value that is made when it is first asked for: the cell is read without its lock,
and when it is empty, read again under the lock, which is held until the value is there. To make one
value others may be asked for, whose locks are of lower rank.

* `Once.Cmd`, `Once.handler`  the commands on cells and locks, beside the other commands;
* `Once.once`       ask for the value of a cell;
* `phase`, `Seen`   where a call stands at a lock, and the values it has read or written;
* `orderly`         what a call promises: locks in the order of their ranks, a value only for a cell
                    that it has found empty under the lock;
* `meets_once`      asking for a value keeps to it.
-/

set_option linter.unusedVariables false
set_option linter.unusedSectionVars false

namespace Once
open Prog

section
variable (ι : Type) (V : ι → Type)

/-- the commands on the cells -/
inductive Cell : Type → Type where
  | read (i : ι) : Cell (Option (V i))
  | write (i : ι) (v : V i) : Cell Unit
  | acquire (i : ι) : Cell Unit
  | release (i : ι) : Cell Unit

def Cell.index {ι : Type} {V : ι → Type} {β : Type} : Cell ι V β → ι
  | .read i => i
  | .write i _ => i
  | .acquire i => i
  | .release i => i

/-- these, and the others -/
def Cmd (C : Type → Type) (β : Type) : Type := Cell ι V β ⊕ C β

structure Shared (σ : Type) where
  /-- the values that were written, the latest first -/
  cells : (i : ι) → List (V i)
  held : ι → Bool
  rest : σ

/-- nothing made, no lock held -/
def Shared.fresh {σ : Type} (s : σ) : Shared ι V σ := ⟨fun _ => [], fun _ => false, s⟩

end

section
variable {ι : Type} {V : ι → Type} {C : Type → Type} {ε α β σ : Type} [DecidableEq ι]

def handler (h : Handler C ε σ) : Handler (Cmd ι V C) ε (Shared ι V σ)
  | _, .inl (.read i), s => (.ok (s.cells i).head?, s)
  | _, .inl (.write i v), s =>
    (.ok (), { s with cells := Function.update s.cells i (v :: s.cells i) })
  | _, .inl (.acquire i), s => (.ok (), { s with held := Function.update s.held i true })
  | _, .inl (.release i), s => (.ok (), { s with held := Function.update s.held i false })
  | _, .inr c, s => ((h _ c s.rest).1, { s with rest := (h _ c s.rest).2 })

/-! ## asking for a value -/

/-- a program over the other commands -/
def others (p : Prog C ε α) : Prog (Cmd ι V C) ε α := p.expand fun _ c => perform (.inr c)

/-- `with lock:` -/
def locked (i : ι) (p : Prog (Cmd ι V C) ε α) : Prog (Cmd ι V C) ε α :=
  (perform (.inl (.acquire i))).attempt fun _ =>
    p.attempt fun r => (perform (.inl (.release i))).attempt fun _ => .done r

/-- make the value, when it is not there -/
def fill (i : ι) (build : Prog (Cmd ι V C) ε (V i)) : Option (V i) → Prog (Cmd ι V C) ε Unit
  | none => build >>= fun v => perform (.inl (.write i v))
  | some _ => pure ()

/-- the value, when it is there; else it is asked for under the lock -/
def orLocked (i : ι) (build : Prog (Cmd ι V C) ε (V i)) :
    Option (V i) → Prog (Cmd ι V C) ε (Option (V i))
  | some v => pure (some v)
  | none => locked i (perform (.inl (.read i)) >>= fun v =>
      fill i build v >>= fun _ => perform (.inl (.read i)))

/-- ask for the value of a cell -/
def once (i : ι) (build : Prog (Cmd ι V C) ε (V i)) : Prog (Cmd ι V C) ε (Option (V i)) :=
  perform (.inl (.read i)) >>= orLocked i build

/-! ## where a call stands -/

/-- at a lock: not under it, under it, or under it with the cell found empty -/
inductive Phase where
  | outside
  | inside
  | empty
deriving DecidableEq

def next (i : ι) : Event (Cmd ι V C) ε → Phase → Phase
  | ⟨.inl (.acquire j), _⟩, ph => if j = i then .inside else ph
  | ⟨.inl (.release j), _⟩, ph => if j = i then .outside else ph
  | ⟨.inl (.write j _), _⟩, ph => if j = i then .inside else ph
  | ⟨.inl (.read j), .ok none⟩, ph => if j = i ∧ ph ≠ .outside then .empty else ph
  | _, ph => ph

/-- after the log `l` -/
def phase (i : ι) (l : Log (Cmd ι V C) ε) : Phase := l.foldr (next i) .outside

/-- the value of a cell that an event shows -/
def shows (i : ι) : Event (Cmd ι V C) ε → Option (V i)
  | ⟨.inl (.read j), .ok (some v)⟩ => if h : j = i then some (h ▸ v) else none
  | ⟨.inl (.write j v), _⟩ => if h : j = i then some (h ▸ v) else none
  | _ => none

def Seen (i : ι) (v : V i) (l : Log (Cmd ι V C) ε) : Prop := ∃ e ∈ l, shows i e = some v

theorem phase_cons (i : ι) (e : Event (Cmd ι V C) ε) (l : Log (Cmd ι V C) ε) :
    phase i (e :: l) = next i e (phase i l) := rfl

theorem seen_cons {i : ι} {v : V i} {e : Event (Cmd ι V C) ε} {l : Log (Cmd ι V C) ε} :
    Seen i v (e :: l) ↔ shows i e = some v ∨ Seen i v l := by
  unfold Seen
  rw [List.exists_mem_cons_iff]

theorem Seen.mono {i : ι} {v : V i} {l l' : Log (Cmd ι V C) ε} (h : Seen i v l) (hl : l <:+ l') :
    Seen i v l' := by
  obtain ⟨e, he, hv⟩ := h
  exact ⟨e, hl.subset he, hv⟩

theorem shows_read (i : ι) (v : V i) :
    shows i (⟨.inl (.read i), .ok (some v)⟩ : Event (Cmd ι V C) ε) = some v := dif_pos rfl

theorem shows_write (i : ι) (v : V i) (r : Except ε Unit) :
    shows i (⟨.inl (.write i v), r⟩ : Event (Cmd ι V C) ε) = some v := dif_pos rfl

section
variable (i : ι) (l : Log (Cmd ι V C) ε)

theorem phase_acquire (r : Except ε Unit) : phase i (⟨.inl (.acquire i), r⟩ :: l) = .inside := by
  simp [phase_cons, next]

theorem phase_release (r : Except ε Unit) : phase i (⟨.inl (.release i), r⟩ :: l) = .outside := by
  simp [phase_cons, next]

theorem phase_write (v : V i) (r : Except ε Unit) :
    phase i (⟨.inl (.write i v), r⟩ :: l) = .inside := by
  simp [phase_cons, next]

/-- what is done at another cell -/
theorem phase_other (c : Cell ι V β) (r : Except ε β) (h : i ≠ c.index) :
    phase i (⟨.inl c, r⟩ :: l) = phase i l := by
  rw [phase_cons]
  cases c with
  | read j =>
    cases r with
    | error e => rfl
    | ok o =>
      cases o with
      | some v => rfl
      | none => exact if_neg fun h' => h h'.1.symm
  | write j v => exact if_neg (Ne.symm h)
  | acquire j => exact if_neg (Ne.symm h)
  | release j => exact if_neg (Ne.symm h)

/-- a read takes no lock and gives none back -/
theorem phase_read (j : ι) (r : Except ε (Option (V j))) :
    phase i (⟨.inl (.read j), r⟩ :: l) = .outside ↔ phase i l = .outside := by
  rw [phase_cons]
  cases r with
  | error e => exact Iff.rfl
  | ok o =>
    cases o with
    | some v => exact Iff.rfl
    | none =>
      show (if j = i ∧ phase i l ≠ .outside then Phase.empty else phase i l) = .outside ↔ _
      split
      · rename_i h
        exact iff_of_false (fun h => by cases h) h.2
      · exact Iff.rfl

end

/-! ## what a call promises -/

variable (rank : ι → Nat)

/-- a cell reads as what was seen of it -/
def replies (l : Log (Cmd ι V C) ε) : {β : Type} → Cmd ι V C β → Except ε β → Prop
  | _, .inl (.read i), r => ∃ o, r = .ok o ∧ ∀ v, Seen i v l → o = some v
  | _, .inl (.write _ _), r => r = .ok ()
  | _, .inl (.acquire _), r => r = .ok ()
  | _, .inl (.release _), r => r = .ok ()
  | _, .inr _, _ => True

def issues (l : Log (Cmd ι V C) ε) : {β : Type} → Cmd ι V C β → Prop
  | _, .inl (.read _) => True
  | _, .inl (.write i _) => phase i l = .empty
  | _, .inl (.acquire i) => ∀ j, phase j l ≠ .outside → rank i < rank j
  | _, .inl (.release i) => phase i l ≠ .outside
  | _, .inr _ => True

/-- in the end no lock is held -/
def orderly (promise : Log (Cmd ι V C) ε → Except ε α → Prop) : Contract (Cmd ι V C) ε α where
  reply := replies
  issue := issues rank
  result l r := (∀ i, phase i l = .outside) ∧ promise l r

/-- the locks as they were -/
def Same (l l' : Log (Cmd ι V C) ε) : Prop := ∀ i, phase i l' = phase i l

theorem Same.refl (l : Log (Cmd ι V C) ε) : Same l l := fun _ => rfl

theorem Same.trans {l l' l'' : Log (Cmd ι V C) ε} (h : Same l l') (h' : Same l' l'') : Same l l'' :=
  fun i => (h' i).trans (h i)

/-- a part of a call, which leaves the locks as they were -/
def steady (promise : Log (Cmd ι V C) ε → Except ε α → Prop) (l : Log (Cmd ι V C) ε) :
    Contract (Cmd ι V C) ε α where
  reply := replies
  issue := issues rank
  result l' r := Same l l' ∧ promise l' r

end

/-! ## asking keeps the promise -/

section
variable {ι : Type} {V : ι → Type} {C : Type → Type} {ε α β σ : Type} [DecidableEq ι]
  {rank : ι → Nat} {l l₀ : Log (Cmd ι V C) ε}

/-- the other commands leave the locks alone -/
theorem meets_others (p : Prog C ε α) (h : Same l₀ l) :
    Meets (steady rank (fun _ _ => True) l₀) l (others p) := by
  induction p generalizing l with
  | done r => exact ⟨h, trivial⟩
  | call c k ih => exact ⟨trivial, fun r _ => ih r fun i => h i⟩

/-- what `once` returns -/
def Got (i : ι) (l : Log (Cmd ι V C) ε) (r : Except ε (Option (V i))) : Prop :=
  ∀ o, r = .ok o → ∃ v, o = some v ∧ Seen i v l

/-- a value that was seen is read again -/
theorem meets_reread {i : ι} {v : V i}
    {promise : Log (Cmd ι V C) ε → Except ε (Option (V i)) → Prop} (hs : Seen i v l)
    (hp : ∀ l', l <:+ l' → Same l l' → promise l' (.ok (some v))) :
    Meets ⟨replies, issues rank, promise⟩ l (perform (.inl (.read i))) := by
  refine ⟨trivial, fun r hr => ?_⟩
  obtain ⟨o, rfl, ho⟩ := hr
  obtain rfl := ho v hs
  exact hp _ (List.suffix_cons _ _) fun j => rfl

/-- under the lock of `i`, and the others as they were -/
structure Under (i : ι) (l l' : Log (Cmd ι V C) ε) : Prop where
  own : phase i l' ≠ .outside
  other : ∀ j, j ≠ i → phase j l' = phase j l

theorem Under.same {i : ι} {l' : Log (Cmd ι V C) ε} (h : Under i l₀ l) (hs : Same l l') :
    Under i l₀ l' :=
  ⟨fun hi => h.own (hs i ▸ hi), fun j hj => (hs j).trans (h.other j hj)⟩

theorem meets_locked {i : ι} {promise : Log (Cmd ι V C) ε → Except ε α → Prop}
    {p : Prog (Cmd ι V C) ε α} (hmono : ∀ l' l'' r, l' <:+ l'' → promise l' r → promise l'' r)
    (hs : Same l₀ l) (hl : ∀ j, phase j l₀ ≠ .outside → rank i < rank j)
    (hp : ∀ l', Under i l₀ l' →
      Meets ⟨replies, issues rank, fun l'' r => Under i l₀ l'' ∧ promise l'' r⟩ l' p) :
    Meets (steady rank promise l₀) l (locked i p) := by
  refine ⟨fun j hj => hl j (hs j ▸ hj), fun r _ => ?_⟩
  have hunder : Under i l₀ (⟨.inl (.acquire i), r⟩ :: l) := by
    refine ⟨?_, fun j hj => (phase_other j l (.acquire i) r hj).trans (hs j)⟩
    rw [phase_acquire]
    decide
  show Meets _ _ (p.attempt _)
  refine meets_attempt (Meets.conseq (hp _ hunder) fun l' r hsuf h => ⟨h.1.own, fun r' _ => ?_⟩)
  refine ⟨fun j => ?_, hmono _ _ _ (List.suffix_cons _ _) h.2⟩
  by_cases hj : j = i
  · subst hj
    have hout : phase j l₀ = .outside := by
      by_contra h
      exact lt_irrefl _ (hl j h)
    rw [hout]
    exact phase_release ..
  · exact (phase_other j l' (.release i) r' hj).trans (h.1.other j hj)

/-- **asking for a value** takes its lock and gives it back, and gives a value that was read or
written, when no lock of its rank or below is held, and making the value leaves the locks alone -/
theorem meets_once {i : ι} {build : Prog (Cmd ι V C) ε (V i)}
    (hl : ∀ j, phase j l ≠ .outside → rank i < rank j)
    (hb : ∀ l', phase i l' = .empty → (∀ j, phase j l' ≠ .outside → rank i ≤ rank j) →
      Meets (steady rank (fun _ _ => True) l') l' build) :
    Meets (steady rank (Got i) l) l (once i build) := by
  refine ⟨trivial, fun r hr => ?_⟩
  obtain ⟨o, rfl, -⟩ := hr
  have hgot : ∀ (l' : Log (Cmd ι V C) ε) v, Seen i v l' → Got i l' (.ok (some v)) :=
    fun l' v hv o ho => ⟨v, (Except.ok.inj ho).symm, hv⟩
  cases o with
  | some v =>
    refine ⟨fun j => rfl, hgot _ v (seen_cons.mpr (.inl (shows_read i v)))⟩
  | none =>
    have hsame : Same l (⟨.inl (.read i), .ok none⟩ :: l : Log (Cmd ι V C) ε) := by
      intro j
      refine if_neg fun h => h.2 ?_
      by_contra hj
      obtain rfl := h.1
      exact lt_irrefl _ (hl _ hj)
    refine meets_locked (fun l' l'' r hsuf h o ho => ?_) hsame hl fun l' hu => ⟨trivial, fun r hr => ?_⟩
    · obtain ⟨v, hv, hseen⟩ := h o ho
      exact ⟨v, hv, hseen.mono hsuf⟩
    obtain ⟨o, rfl, -⟩ := hr
    cases o with
    | some v =>
      refine meets_reread (v := v) (seen_cons.mpr (.inl (shows_read i v))) fun l'' hsuf hs => ?_
      refine ⟨hu.same hs, hgot _ v (Seen.mono (seen_cons.mpr (.inl (shows_read i v))) hsuf)⟩
    | none =>
      have hempty : phase i (⟨.inl (.read i), .ok none⟩ :: l' : Log (Cmd ι V C) ε) = .empty :=
        if_pos ⟨rfl, hu.own⟩
      have hother : ∀ j, j ≠ i →
          phase j (⟨.inl (.read i), .ok none⟩ :: l' : Log (Cmd ι V C) ε) = phase j l :=
        fun j hj => (phase_other j l' (.read i) _ hj).trans (hu.other j hj)
      have hunder : Under i l (⟨.inl (.read i), .ok none⟩ :: l' : Log (Cmd ι V C) ε) :=
        ⟨by rw [hempty]; decide, hother⟩
      show Meets _ _ (((build >>= _) >>= _))
      rw [bind_bind]
      have hbuild := hb _ hempty fun j hj => by
        by_cases hj' : j = i
        · rw [hj']
        · exact (hl j (hother j hj' ▸ hj)).le
      refine meets_bind hbuild (fun l'' v hsuf h => ⟨(h.1 i).trans hempty, fun r hr => ?_⟩)
        fun l'' e hsuf h => ⟨hunder.same h.1, fun o ho => by cases ho⟩
      obtain rfl : r = .ok () := hr
      have hseen : Seen i v (⟨.inl (.write i v), .ok ()⟩ :: l'' : Log (Cmd ι V C) ε) :=
        seen_cons.mpr (.inl (shows_write i v _))
      refine meets_reread hseen fun l₃ hsuf hs =>
        ⟨Under.same ⟨?_, fun j hj => ?_⟩ hs, hgot _ v (hseen.mono hsuf)⟩
      · rw [phase_write]
        decide
      · exact (phase_other j l'' (.write i v) _ hj).trans ((hunder.same h.1).other j hj)

end

end Once
