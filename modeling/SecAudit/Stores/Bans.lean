import SecAudit.Stores.Workers

/-!
# The bans that workers must not miss

* `Undisturbed`      the steps under which a ban cannot be missed: once the call that bans has
                     committed its row nobody revokes it, and once it has dropped the sentinel
                     nobody makes one of rows read before the ban;
* `Rereads`          a read finds the key that it has itself written;
* `Writing`, `Holding`  the ban up to the return of the call that writes it, and from then on;
* `ban_not_missed`   in a run of such steps every read that starts after the ban finds it.
-/

set_option linter.unusedVariables false
set_option linter.unusedSectionVars false

namespace SecAudit
open Py Prog

/-! ## the condition -/

section
variable (st : TieredBlockStore) (s : BlockScope)

/-- the call of worker `w` has committed a row of the scope -/
def Banning (w : Nat) (p : Workers) : Prop := ∃ j, p.jobs w = some j ∧ Committed s j.log

/-- and has dropped the sentinel since -/
def Cleared (w : Nat) (p : Workers) : Prop :=
  ∃ j, p.jobs w = some j ∧ Committed s j.log ∧ Dropped st.redis.warmKey j.log

/-- the next command of a call with the log `l`: it does not revoke the row of the scope after the
ban, and does not make a sentinel of rows without the scope after the old one was dropped -/
def Undisturbed (banned cleared : Prop) (l : CallLog) {β : Type} (c : Cmd β) : Prop :=
  (banned → c.revokes ≠ some s) ∧
  (cleared → c.setKey = some st.redis.warmKey → ListsScope st s l)

/-- up to the moment the call of worker `w`, which bans, returns -/
def BeforeReturn (w : Nat) : Workers → Turn → Prop :=
  StepMeets fun _ p j _ c => Undisturbed st s (Banning s w p) (Cleared st s w p) j.log c

/-- from then on -/
def AfterReturn : Workers → Turn → Prop :=
  StepMeets fun _ _ j _ c => Undisturbed st s True True j.log c

/-- the next command of a read with the log `l`: no limit is near, and the key of the scope is there
when the read has written it -/
def Rereads (w : World) (l : CallLog) {β : Type} (c : Cmd β) : Prop :=
  Room st w ∧ (st.redis.key s ∈ readKeys c → Wrote (st.redis.key s) l →
    (nonEmpty (w.read (st.redis.key s))).isSome = true)

/-- while worker `v` makes its read -/
def WhileReading (v : Nat) (p : Workers) (a : Turn) : Prop :=
  AfterReturn st s p a ∧ StepMeets (fun u p j _ c => u = v → Rereads st s p.shared j.log c) p a

end

/-! ## up to the return of the ban -/

section
variable {b : Builtins} {st : TieredBlockStore} {s : BlockScope} {p p' : Workers} {a : Turn}

/-- a row that is not revoked stays -/
theorem row_stays {w : World} (hrow : s ∈ scopesOf w.table.rows) {β : Type} {c : Cmd β}
    (hr : c.revokes ≠ some s) : s ∈ scopesOf (backend β c w).2.table.rows := by
  have sent : ∀ {texts : List Str} {exc : Fault → Exc} {run : World → Except Exc β × World},
      s ∈ scopesOf (run w.sent).2.table.rows → s ∈ scopesOf (w.send texts exc run).2.table.rows := by
    intro texts exc run hrun
    rcases @send_world _ w texts exc run with e | e | ⟨-, -, e⟩
    · rw [e]
      exact hrow
    · rw [e]
      exact hrow
    · rw [e]
      exact hrun
  cases c with
  | now => exact hrow
  | get k => exact sent hrow
  | mget ks => exact sent hrow
  | delete k => exact sent hrow
  | scan pre => exact sent hrow
  | activeRow s' t => exact sent hrow
  | activeRows ss t => exact sent hrow
  | allActive t => exact sent hrow
  | set k v ex =>
    refine sent ?_
    show s ∈ scopesOf (if 0 < ex then _ else _ : Except Exc Unit × World).2.table.rows
    split <;> exact hrow
  | updateOrCreate s' a e t =>
    show s ∈ scopesOf (if a.writable = true then _ else _ : Except Exc Row × World).2.table.rows
    split
    · exact sent (Table.mem_scopesOf_upsert.mpr (.inr hrow))
    · exact hrow
  | revoke s' reason revokedBy t =>
    exact sent (Table.mem_scopesOf_revoke.mpr ⟨fun e => hr (congrArg some e.symm), hrow⟩)

/-- a row that was written is there -/
theorem row_written {w : World} {a : BlockArgs} {e : Option Int} {t : Int} {row : Row}
    (h : (backend _ (.updateOrCreate s a e t) w).1 = .ok row) :
    s ∈ scopesOf (backend _ (.updateOrCreate s a e t) w).2.table.rows := by
  rcases hx : backend _ (.updateOrCreate s a e t) w with ⟨r, w'⟩
  rw [hx] at h
  obtain rfl : r = .ok row := h
  replace hx : (if a.writable = true then w.sendTable (s.texts ++ a.texts) fun w =>
      (.ok (w.table.upsert s a e t).1, { w with table := (w.table.upsert s a e t).2 })
    else (.error .jsonError, w)) = (.ok row, w') := hx
  split at hx
  · obtain ⟨-, -, hrun⟩ := sendTable_ok hx
    obtain ⟨-, rfl⟩ := Prod.mk.inj hrun
    exact Table.mem_scopesOf_upsert.mpr (.inl rfl)
  · cases (Prod.mk.inj hx).1

/-- a sentinel that was dropped is gone -/
theorem warm_dropped {w : World} {k : Str} {n : Int}
    (h : (backend _ (.delete k) w).1 = .ok n) : (backend _ (.delete k) w).2.read k = none := by
  rcases hx : backend _ (.delete k) w with ⟨r, w'⟩
  rw [hx] at h
  obtain rfl : r = .ok n := h
  rcases delete_cases hx with ⟨-, -, -, rfl⟩ | ⟨hx, -⟩ | ⟨hx, -⟩
  · exact ExpMap.get_drop_same ..
  · cases hx
  · cases hx

/-- the ban as it is being written -/
structure Writing (b : Builtins) (st : TieredBlockStore) (s : BlockScope) (hs : s.encodable = true)
    (w : Nat) (p : Workers) : Prop where
  sane : Sane b st p
  row : Banning s w p → s ∈ scopesOf p.shared.table.rows
  force : Cleared st s w p → InForce st hs b p.shared

theorem not_committed_nil : ¬ Committed s [] := by
  rintro ⟨a, t, row, hm⟩
  exact absurd hm List.not_mem_nil

variable {hs : s.encodable = true} {w : Nat} (hpg : st.pg = true)

/-- a worker that is idle has banned nothing -/
theorem writing_start (h : Sane b st p) (hj : p.jobs w = none) : Writing b st s hs w p where
  sane := h
  row := by
    rintro ⟨j, hj', -⟩
    rw [hj] at hj'
    cases hj'
  force := by
    rintro ⟨j, hj', -⟩
    rw [hj] at hj'
    cases hj'

include hpg

/-- **one step of the run up to the return** -/
theorem writing_act (h : Writing b st s hs w p) (hG : BeforeReturn st s w p a)
    (ha : turn b st p a = some p') : Writing b st s hs w p' := by
  have hsane := sane_act hpg h.sane ha
  rcases act_cases _ _ _ ha with ⟨u, o, rfl, -, rfl⟩ | ⟨u, j, β, c, k, rfl, hj, hr, rfl⟩ |
    ⟨u, j, r, rfl, -, -, rfl⟩ | ⟨x, rfl, rfl⟩
  · -- a call that has just started has committed nothing
    refine ⟨hsane, ?_, ?_⟩
    · rintro ⟨j, hj, hc⟩
      rcases job_cases hj with ⟨-, e⟩ | ⟨-, hj⟩
      · cases e
        exact absurd hc not_committed_nil
      · exact h.row ⟨j, hj, hc⟩
    · rintro ⟨j, hj, hc, hd⟩
      rcases job_cases hj with ⟨-, e⟩ | ⟨-, hj⟩
      · cases e
        exact absurd hc not_committed_nil
      · exact h.force ⟨j, hj, hc, hd⟩
  · obtain ⟨hrev, hwarm⟩ := hG u j rfl hj β c k hr
    have hissue := h.sane.issue hj hr
    have hstay : Banning s w p → s ∈ scopesOf (backend β c p.shared).2.table.rows :=
      fun hB => row_stays (h.row hB) (hrev hB)
    have hkeep : Cleared st s w p → InForce st hs b (backend β c p.shared).2 := by
      intro hC
      obtain ⟨j', hj', hc, hd⟩ := id hC
      exact (h.force hC).step hissue (hrev ⟨j', hj', hc⟩) (hwarm hC)
    refine ⟨hsane, ?_, ?_⟩
    · rintro ⟨j', hj', hc⟩
      rcases job_cases hj' with ⟨rfl, e⟩ | ⟨-, hj'⟩
      · cases e
        obtain ⟨a, t, row, hm⟩ := hc
        rcases List.mem_cons.mp hm with he | hm
        · -- the step that commits the row
          generalize hx : (backend β c p.shared).1 = r at he
          cases he
          exact row_written hx
        · exact hstay ⟨j, hj, a, t, row, hm⟩
      · exact hstay ⟨j', hj', hc⟩
    · rintro ⟨j', hj', hc, hd⟩
      rcases job_cases hj' with ⟨rfl, e⟩ | ⟨-, hj'⟩
      · cases e
        obtain ⟨a, t, row, hc₀⟩ := hc
        obtain ⟨n, hd₀⟩ := hd
        rcases List.mem_cons.mp hc₀ with he | hc
        · -- no call drops the sentinel before it commits
          rcases List.mem_cons.mp hd₀ with he' | hd
          · cases congrArg (fun e : Event Cmd Exc => e.cmd.deletes) (he'.trans he.symm)
          · generalize hx : (backend β c p.shared).1 = r at he
            cases he
            exact absurd ⟨n, hd⟩ hissue.2.2
        · rcases List.mem_cons.mp hd₀ with he | hd
          · -- the step that drops the sentinel
            generalize hx : (backend β c p.shared).1 = r at he
            cases he
            refine .of_base hsane.world (hstay ⟨j, hj, a, t, row, hc⟩) fun text htext => ?_
            have hgone := warm_dropped hx
            replace htext : (backend _ (.delete st.redis.warmKey) p.shared).2.read
              st.redis.warmKey = some text := htext
            rw [hgone] at htext
            cases htext
          · exact hkeep ⟨j, hj, ⟨a, t, row, hc⟩, n, hd⟩
      · exact hkeep ⟨j', hj', hc, hd⟩
  · refine ⟨hsane, ?_, ?_⟩
    · rintro ⟨j', hj', hc⟩
      rcases job_cases hj' with ⟨-, e⟩ | ⟨-, hj'⟩
      · cases e
      · exact h.row ⟨j', hj', hc⟩
    · rintro ⟨j', hj', hc, hd⟩
      rcases job_cases hj' with ⟨-, e⟩ | ⟨-, hj'⟩
      · cases e
      · exact h.force ⟨j', hj', hc, hd⟩
  · refine ⟨hsane, fun hB => ?_, fun hC => (h.force hC).env x⟩
    show s ∈ scopesOf (x.apply p.shared).table.rows
    rw [x.table]
    exact h.row hB

omit hpg

/-! ## from the return on -/

/-- the ban is in force -/
structure Holding (b : Builtins) (st : TieredBlockStore) (s : BlockScope) (hs : s.encodable = true)
    (p : Workers) : Prop where
  sane : Sane b st p
  force : InForce st hs b p.shared

/-- **a permanent block that has returned is in force** -/
theorem Writing.holding (h : Writing b st s hs w p) {j : Job Cmd Exc Answer Op}
    {a : BlockArgs} {x : Answer} (hj : p.jobs w = some j) (ho : j.op = .block s a none)
    (hr : j.rest = .done (.ok x)) : Holding b st s hs p := by
  have hm := h.sane.jobs w j hj
  rw [hr] at hm
  have hfin := hm.2 x rfl trivial
  rw [ho] at hfin
  exact ⟨h.sane, h.force ⟨j, hj, hfin.1, hfin.2⟩⟩

include hpg

theorem holding_act (h : Holding b st s hs p) (hG : AfterReturn st s p a)
    (ha : turn b st p a = some p') : Holding b st s hs p' := by
  have hsane := sane_act hpg h.sane ha
  rcases act_cases _ _ _ ha with ⟨u, o, rfl, -, rfl⟩ | ⟨u, j, β, c, k, rfl, hj, hr, rfl⟩ |
    ⟨u, j, r, rfl, -, -, rfl⟩ | ⟨x, rfl, rfl⟩
  · exact ⟨hsane, h.force⟩
  · obtain ⟨hrev, hwarm⟩ := hG u j rfl hj β c k hr
    exact ⟨hsane, h.force.step (h.sane.issue hj hr) (hrev trivial) (hwarm trivial)⟩
  · exact ⟨hsane, h.force⟩
  · exact ⟨hsane, h.force.env x⟩

omit hpg

/-! ## a read that starts then -/

/-- a read of scopes that UTF-8 can carry, `s` among them -/
def Reads (s : BlockScope) (q : Op) : Prop :=
  (q = .getActive s ∧ s.encodable = true) ∨
  ∃ ss, q = .firstActive ss ∧ s ∈ ss ∧ ∀ s' ∈ ss, s'.encodable = true

theorem Reads.encodable {q : Op} (h : Reads s q) : s.encodable = true := by
  rcases h with ⟨-, h⟩ | ⟨ss, -, hm, h⟩
  · exact h
  · exact h s hm

/-- the read found an entry -/
def Found (l : CallLog) (r : Except Exc Answer) : Prop := ∃ e, r = .ok (.found (some e))

variable (hlim : encodable st.redis.keyPrefix = true ∧ 0 < st.permanentCacheTtl)

theorem found_of_answers {scopes : List BlockScope} (hm : s ∈ scopes)
    {q : Call (Option BlockEntry)} {l : CallLog}
    (h : Meets (reads b (.banning st hs True True fun _ => hlim)
      (Answers (.banning st hs True True fun _ => hlim) scopes)) l q) :
    Meets (reads b (.banning st hs True True fun _ => hlim) Found) l
      (q >>= fun o => pure (Answer.found o)) := by
  refine meets_bind h ?_ ?_
  · intro l' o _ ha
    cases o with
    | some e => exact ⟨e, rfl⟩
    | none => exact absurd rfl (ha.complete rfl s hm).1
  · intro l' e _ ha
    rcases ha.raises e rfl with ⟨-, hn⟩ | ⟨-, hn⟩
    · exact absurd ⟨trivial, trivial⟩ hn
    · exact absurd trivial hn

theorem found_prog (hpg : st.pg = true) {q : Op} (hq : Reads s q) :
    Meets (reads b (.banning st hs True True fun _ => hlim) Found) [] (q.prog b st) := by
  rcases hq with ⟨rfl, -⟩ | ⟨ss, rfl, hm, he⟩
  · exact found_of_answers hlim (List.mem_singleton_self s) (reads_getActive hpg fun _ => hs)
  · exact found_of_answers hlim hm (reads_firstActive hpg fun _ => he)

/-- what a read relies on, of the next command -/
theorem Holding.reply (h : Holding b st s hs p) {v : Nat} (hG : WhileReading st s v p a) :
    StepMeets (fun u p j _ c => u = v →
      (reads b (.banning st hs True True fun _ => hlim) Found).issue j.log c →
      (reads b (.banning st hs True True fun _ => hlim) Found).reply j.log c
        (backend _ c p.shared).1) p a := by
  intro u j ha hj β c k hr hu hi
  obtain ⟨hroom, hkey⟩ := hG.2 u j ha hj β c k hr hu
  refine (h.force.agrees True True fun _ => hlim).reply (fun _ => hroom) (fun _ => ?_) hi.1
    fun s' hk => ?_
  · unfold World.fault
    rw [h.sane.quiet]
    rfl
  · rintro (hc | ⟨hk', hw⟩)
    · exact hc.elim
    · rw [show st.redis.key s' = st.redis.key s from hk'] at hk hw ⊢
      exact hkey hk hw

end

/-- **No permanent ban is missed**, in a run of undisturbed steps: once a call `block(s, ttl=None)`
has returned, every read of `s` that starts later returns an entry. -/
theorem ban_not_missed (b : Builtins) (st : TieredBlockStore) (hpg : st.pg = true)
    (hpre : encodable st.redis.keyPrefix = true) (httl : 0 < st.permanentCacheTtl) (t : Int)
    (s : BlockScope) (a : BlockArgs) (as₀ as₁ as₂ as₃ : List Turn) (p₀ p₁ p₂ p₃ : Workers)
    (w v : Nat) (x : Answer) (q : Op) (r : Except Exc Answer)
    (h₀ : turns b st (Pool.idle (World.empty t)) as₀ = some p₀)
    (h₁ : turns b st p₀ (.call w (.block s a none) :: as₁) = some p₁)
    (hw : Act.ret w ∉ as₁) (hret : p₁.result w = some (.ok x))
    (hG₁ : AllTurns b st (BeforeReturn st s w) p₀ (.call w (.block s a none) :: as₁))
    (h₂ : turns b st p₁ as₂ = some p₂) (hG₂ : AllTurns b st (AfterReturn st s) p₁ as₂)
    (h₃ : turns b st p₂ (.call v q :: as₃) = some p₃)
    (hG₃ : AllTurns b st (WhileReading st s v) p₂ (.call v q :: as₃))
    (hq : Reads s q) (hv : Act.ret v ∉ as₃) (hr : p₃.result v = some r) :
    ∃ e, r = .ok (.found (some e)) := by
  have hsane : Sane b st p₀ :=
    run_inv backend (Op.prog b st) Env.apply (G := fun _ _ => True) (A := fun _ => True)
      (fun p a p' hI _ _ ha => sane_act hpg hI ha) (sane_idle t) (along_true _ _ _ _ _)
      (fun _ _ => trivial) h₀
  obtain ⟨pb, hb, -⟩ := Option.bind_eq_some_iff.mp h₁
  have hwrite : Writing b st s hq.encodable w p₁ :=
    run_inv backend (Op.prog b st) Env.apply (A := fun _ => True)
      (fun p a p' hI hG _ ha => writing_act hpg hI hG ha) (writing_start hsane (op_start hb).1) hG₁
      (fun _ _ => trivial) h₁
  obtain ⟨jb, hjb, hop⟩ := op_some (op_run h₁ hw)
  obtain ⟨jb', hjb', hdone⟩ := result_some hret
  obtain rfl : jb' = jb := Option.some.inj (hjb'.symm.trans hjb)
  have hhold : Holding b st s hq.encodable p₂ :=
    run_inv backend (Op.prog b st) Env.apply (A := fun _ => True)
      (fun p a p' hI hG _ ha => holding_act hpg hI hG ha) (hwrite.holding hjb hop hdone) hG₂
      (fun _ _ => trivial) h₂
  obtain ⟨pc, hc, h₃⟩ := Option.bind_eq_some_iff.mp h₃
  have hread := run_inv backend (Op.prog b st) Env.apply (A := fun a => a ≠ Act.ret v)
    (I := fun p => Holding b st s hq.encodable p ∧
      At b (.banning st hq.encodable True True fun _ => ⟨hpre, httl⟩) Found v p)
    (fun p a p' hI hG hA ha =>
      ⟨holding_act hpg hI.1 hG.1 ha, at_act hI.2 hA (hI.1.reply _ hG) ha⟩)
    ⟨holding_act hpg hhold hG₃.1.1 hc, at_start (found_prog _ hpg hq) hc⟩ (hG₃.2 pc hc)
    (fun a ha e => hv (e ▸ ha)) h₃
  obtain ⟨l, hfound⟩ := hread.2.result hr
  exact hfound

/-! ## runs on fixed inputs -/

def Op.bans (s : BlockScope) : Op → Bool
  | .block s' _ none => decide (s' = s)
  | _ => false

theorem Op.of_bans {s : BlockScope} {o : Op} (h : o.bans s = true) : ∃ a, o = .block s a none := by
  unfold Op.bans at h
  split at h
  · rename_i s' a
    obtain rfl := of_decide_eq_true h
    exact ⟨a, rfl⟩
  · cases h

instance (s : BlockScope) (w : Nat) (p : Workers) : Decidable (Banning s w p) :=
  decidable_of_iff (∃ j ∈ p.jobs w, Committed s j.log) Iff.rfl

instance (st : TieredBlockStore) (s : BlockScope) (w : Nat) (p : Workers) :
    Decidable (Cleared st s w p) :=
  decidable_of_iff (∃ j ∈ p.jobs w, Committed s j.log ∧ Dropped st.redis.warmKey j.log) Iff.rfl

instance (st : TieredBlockStore) (s : BlockScope) (banned cleared : Prop) [Decidable banned]
    [Decidable cleared] (l : CallLog) {β : Type} (c : Cmd β) :
    Decidable (Undisturbed st s banned cleared l c) :=
  inferInstanceAs (Decidable (_ ∧ _))

instance (st : TieredBlockStore) (s : BlockScope) (w : World) (l : CallLog) {β : Type}
    (c : Cmd β) : Decidable (Rereads st s w l c) :=
  inferInstanceAs (Decidable (_ ∧ _))

instance (st : TieredBlockStore) (s : BlockScope) (w : Nat) (p : Workers) (a : Turn) :
    Decidable (BeforeReturn st s w p a) :=
  inferInstanceAs (Decidable (StepMeets _ p a))

instance (st : TieredBlockStore) (s : BlockScope) (p : Workers) (a : Turn) :
    Decidable (AfterReturn st s p a) :=
  inferInstanceAs (Decidable (StepMeets _ p a))

instance (st : TieredBlockStore) (s : BlockScope) (v : Nat) (p : Workers) (a : Turn) :
    Decidable (WhileReading st s v p a) :=
  inferInstanceAs (Decidable (_ ∧ StepMeets _ p a))

/-- worker 1 lists the rows while Redis is cold -/
def listRows : List Turn := .call 1 (.getActive .sample) :: List.replicate 4 (.step 1)

/-- worker 0 bans the scope; worker 1 makes its sentinel of the rows listed before, which worker 0
then drops -/
def banOver : List Turn :=
  [.step 0, .step 0, .step 1, .step 0, .step 0, .step 0]

/-- worker 1 finishes, Redis is flushed, and worker 1 starts the next read -/
def readAfter : List Turn :=
  [.step 1, .ret 1, .ret 0, .env (.evict fun _ => true), .call 1 (.firstActive [.sample]),
    .step 1, .step 1]

/-- workers 1 and 2 both find Redis cold and make a sentinel -/
def readOver : List Turn :=
  [.step 2, .step 2, .step 1, .env (.advance 5), .step 1, .step 2, .step 1, .step 2, .step 1,
    .step 1, .step 2, .step 2, .step 2, .step 1, .step 2]

theorem ban_not_missed_overlapping :
    ∃ p₀ p₁ p₂ p₃ x r,
      turns .sample .sample (Pool.idle (World.empty 0)) listRows = some p₀ ∧
      turns .sample .sample p₀ (.call 0 (.block .sample {} none) :: banOver) = some p₁ ∧
      p₁.result 0 = some (.ok x) ∧ turns .sample .sample p₁ readAfter = some p₂ ∧
      turns .sample .sample p₂ (.call 2 (.getActive .sample) :: readOver) = some p₃ ∧
      p₃.result 2 = some r ∧ ∃ e, r = .ok (.found (some e)) := by
  have h : ((turns .sample .sample (Pool.idle (World.empty 0)) listRows).any fun p₀ =>
      decide (AllTurns .sample .sample (BeforeReturn .sample .sample 0) p₀
        (.call 0 (.block .sample {} none) :: banOver)) &&
      (turns .sample .sample p₀ (.call 0 (.block .sample {} none) :: banOver)).any fun p₁ =>
      returnedBy (some p₁) 0 (fun _ => true) &&
      decide (AllTurns .sample .sample (AfterReturn .sample .sample) p₁ readAfter) &&
      (turns .sample .sample p₁ readAfter).any fun p₂ =>
      decide (AllTurns .sample .sample (WhileReading .sample .sample 2) p₂
        (.call 2 (.getActive .sample) :: readOver)) &&
      returnedBy (turns .sample .sample p₂ (.call 2 (.getActive .sample) :: readOver)) 2
        (fun _ => true)) = true := by
    decide +kernel
  simp only [Option.any_eq_true, Bool.and_eq_true, decide_eq_true_eq] at h
  obtain ⟨p₀, h₀, hG₁, p₁, h₁, ⟨hret, hG₂⟩, p₂, h₂, hG₃, hread⟩ := h
  obtain ⟨p, x, hp, hx, -⟩ := of_returnedBy hret
  cases hp
  obtain ⟨p₃, y, h₃, hy, -⟩ := of_returnedBy hread
  exact ⟨p₀, p₁, p₂, p₃, x, _, h₀, h₁, hx, h₂, h₃, hy, ban_not_missed .sample .sample rfl
    (by decide) (by decide) 0 .sample {} listRows banOver readAfter readOver p₀ p₁ p₂ p₃ 0 2 x
    (.getActive .sample) _ h₀ h₁ (by simp [banOver]) hx hG₁ h₂ hG₂ h₃ hG₃ (.inl ⟨rfl, by decide⟩)
    (by simp [readOver]) hy⟩

/-- worker 0 bans the scope, alone -/
def banAlone : List Turn := .call 0 (.block .sample {} none) :: List.replicate 5 (.step 0)

/-- worker 1, reading while Redis is cold, has listed the rows when worker 0 bans the scope -/
def staleBan : List Turn :=
  .call 1 (.getActive .sample) :: List.replicate 4 (.step 1) ++ banAlone

/-- worker 1 goes on to write its sentinel, the key of the block is evicted, worker 2 reads -/
def staleRewarm : List Turn :=
  [.step 1, .env (.evict fun k => decide (k ≠ TieredBlockStore.sample.redis.warmKey))] ++
    .call 2 (.getActive .sample) :: List.replicate 2 (.step 2)

theorem ban_not_missed_stale :
    ∃ p₁ p₂ a x, turns .sample .sample (Pool.idle (World.empty 0)) staleBan = some p₁ ∧
      p₁.op 0 = some (.block .sample a none) ∧ p₁.result 0 = some (.ok x) ∧
      turns .sample .sample p₁ staleRewarm = some p₂ ∧
      p₂.op 2 = some (.getActive .sample) ∧ p₂.result 2 = some (.ok (.found none)) := by
  have hban : (returnedBy (turns .sample .sample (Pool.idle (World.empty 0)) staleBan) 0
        (fun _ => true) &&
      opBy (turns .sample .sample (Pool.idle (World.empty 0)) staleBan) 0
        (Op.bans .sample)) = true := by
    decide +kernel
  have hread : ((turns .sample .sample (Pool.idle (World.empty 0)) staleBan).all fun p =>
      returnedBy (turns .sample .sample p staleRewarm) 2 Answer.isNone &&
      opBy (turns .sample .sample p staleRewarm) 2 (Op.gets .sample)) = true := by
    decide +kernel
  obtain ⟨hret, hop⟩ := Bool.and_eq_true_iff.mp hban
  obtain ⟨p₁, x, h₁, hx, -⟩ := of_returnedBy hret
  rw [h₁] at hop hread
  obtain ⟨o, hop, hbans⟩ := of_opBy hop
  obtain ⟨a, rfl⟩ := Op.of_bans hbans
  obtain ⟨hret, hgets⟩ := Bool.and_eq_true_iff.mp (show _ = true from hread)
  obtain ⟨p₂, y, h₂, hy, hnone⟩ := of_returnedBy hret
  obtain rfl := Answer.of_isNone hnone
  rw [h₂] at hgets
  obtain ⟨o, ho, hgets⟩ := of_opBy hgets
  obtain rfl := Op.of_gets hgets
  exact ⟨p₁, p₂, a, x, h₁, hop, hx, h₂, ho, hy⟩

end SecAudit
