import SecAudit.Stores.Bans

/-!
# The releases that workers must not undo

* `Unrecached`       the steps under which a release is not undone: once the key of the scope has
                     been dropped, nobody writes it back, and no other scope shares it;
* `Releasing`, `Released`  the unblock up to its return, and from then on;
* `release_not_undone`  in a run of such steps every read of the scope that starts after the unblock
                     finds nothing.
-/

set_option linter.unusedVariables false
set_option linter.unusedSectionVars false

namespace SecAudit
open Py Prog

/-- the scope whose row a command creates or updates -/
def Cmd.creates : {β : Type} → Cmd β → Option BlockScope
  | _, .updateOrCreate s _ _ _ => some s
  | _, _ => none

/-! ## the condition -/

section
variable (st : TieredBlockStore) (s : BlockScope)

/-- the call of worker `w` has dropped the key of the scope -/
def Dropping (w : Nat) (p : Workers) : Prop :=
  ∃ j, p.jobs w = some j ∧ Dropped (st.redis.key s) j.log

/-- and has revoked its row -/
def Revoking (w : Nat) (p : Workers) : Prop := ∃ j, p.jobs w = some j ∧ Revoked s j.log

/-- the next command of the job `j`: once the key has been dropped, the call is not one that blocks a
scope with this key, and does not write the key back from a row it was shown -/
def Unrecached (dropped : Prop) (j : Job Cmd Exc Answer Op) {β : Type} (c : Cmd β) : Prop :=
  dropped → (∀ s' a ttl, j.op = .block s' a ttl → st.redis.key s' ≠ st.redis.key s) ∧
    (c.setKey = some (st.redis.key s) → ¬ Shown st.redis (st.redis.key s) j.log)

/-- no other scope with the same key has a row -/
def Sole (w : World) : Prop :=
  ∀ s' ∈ scopesOf w.table.rows, st.redis.key s' = st.redis.key s → s' = s

/-- up to the moment the call of worker `w`, which unblocks, returns -/
def BeforeRelease (w : Nat) : Workers → Turn → Prop :=
  StepMeets fun u p j _ c => Unrecached st s (Dropping st s w p) j c ∧
    (u = w → c.revokes = some s → Sole st s p.shared)

/-- from then on -/
def AfterRelease : Workers → Turn → Prop := StepMeets fun _ _ j _ c => Unrecached st s True j c

/-- while worker `v` makes its read -/
def WhileLooking (v : Nat) (p : Workers) (a : Turn) : Prop :=
  AfterRelease st s p a ∧ StepMeets (fun u p _ _ _ => u = v → Room st p.shared) p a

/-- `s` is released: no row and no live key is under its key -/
def Facts.freeing (lim up : Prop)
    (hlim : lim → encodable st.redis.keyPrefix = true ∧ 0 < st.permanentCacheTtl) : Facts st where
  banned _ := False
  mayRow s' := s'.encodable = true ∧ st.redis.key s' ≠ st.redis.key s
  cached _ := False
  mayHit k := k ≠ st.redis.key s
  stays _ := False
  within := lim
  up := up
  banned_mayRow _ h := h.elim
  banned_stays _ h := h.elim
  mayRow_encodable _ h := h.1
  mayHit_of_row _ h := h.2
  within_prefix := prefix_of_limits hlim
  within_ttl := ttl_of_limits hlim

end

/-! ## single commands -/

section
variable {b : Builtins} {st : TieredBlockStore} {s : BlockScope} {w : World}

/-- a key that is not there stays away until it is set -/
theorem key_gone {k : Str} (h : w.read k = none) {β : Type} {c : Cmd β} (hc : c.setKey ≠ some k) :
    (backend β c w).2.read k = none := by
  have sent : ∀ {texts : List Str} {exc : Fault → Exc} {run : World → Except Exc β × World},
      (run w.sent).2.read k = none → (w.send texts exc run).2.read k = none := by
    intro texts exc run hrun
    rcases @send_world _ w texts exc run with e | e | ⟨-, -, e⟩
    · rw [e]
      exact h
    · rw [e]
      exact h
    · rw [e]
      exact hrun
  cases c with
  | now => exact h
  | get k' => exact sent h
  | mget ks => exact sent h
  | scan pre => exact sent h
  | activeRow s' t => exact sent h
  | activeRows ss t => exact sent h
  | allActive t => exact sent h
  | revoke s' reason revokedBy t => exact sent h
  | delete k' =>
    refine sent ?_
    show (w.redis.drop k').get w.now k = none
    by_cases e : k = k'
    · rw [e]
      exact ExpMap.get_drop_same ..
    · rw [ExpMap.get_drop_other _ _ e]
      exact h
  | set k' v ex =>
    refine sent ?_
    show (if 0 < ex then _ else _ : Except Exc Unit × World).2.read k = none
    split
    · show (w.redis.put k' v _).get w.now k = none
      rw [ExpMap.get_put_other _ _ _ _ fun e => hc (congrArg some e.symm)]
      exact h
    · exact h
  | updateOrCreate s' a e t =>
    show (if a.writable = true then _ else _ : Except Exc Row × World).2.read k = none
    split
    · exact sent h
    · exact h

/-- time and evictions do not bring a key back -/
theorem key_gone_env {k : Str} (h : w.read k = none) (x : Env) : (x.apply w).read k = none := by
  cases x with
  | advance d =>
    rcases hx : (Env.apply (.advance d) w).read k with _ | v
    · rfl
    · have hv : w.read k = some v := ExpMap.get_later hx (Int.le_add_of_nonneg_right (by omega))
      rw [h] at hv
      cases hv
  | evict q =>
    show (w.redis.evict q).get w.now k = none
    rw [ExpMap.get_evict]
    split
    · rfl
    · exact h

/-- an unrevoked row was there, or has just been written -/
theorem row_old {s' : BlockScope} {β : Type} {c : Cmd β}
    (h : s' ∈ scopesOf (backend β c w).2.table.rows) :
    s' ∈ scopesOf w.table.rows ∨ c.creates = some s' := by
  have sent : ∀ {texts : List Str} {exc : Fault → Exc} {run : World → Except Exc β × World},
      (s' ∈ scopesOf (run w.sent).2.table.rows →
        s' ∈ scopesOf w.table.rows ∨ c.creates = some s') →
      s' ∈ scopesOf (w.send texts exc run).2.table.rows →
      s' ∈ scopesOf w.table.rows ∨ c.creates = some s' := by
    intro texts exc run hrun h
    rcases @send_world _ w texts exc run with e | e | ⟨-, -, e⟩
    · rw [e] at h
      exact .inl h
    · rw [e] at h
      exact .inl h
    · rw [e] at h
      exact hrun h
  cases c with
  | now => exact .inl h
  | get k => exact sent .inl h
  | mget ks => exact sent .inl h
  | delete k => exact sent .inl h
  | scan pre => exact sent .inl h
  | activeRow s' t => exact sent .inl h
  | activeRows ss t => exact sent .inl h
  | allActive t => exact sent .inl h
  | set k v ex =>
    refine sent (fun h => .inl ?_) h
    replace h : s' ∈ scopesOf (if 0 < ex then _ else _ : Except Exc Unit × World).2.table.rows := h
    split at h <;> exact h
  | updateOrCreate s₁ a e t =>
    replace h : s' ∈ scopesOf
      (if a.writable = true then _ else _ : Except Exc Row × World).2.table.rows := h
    split at h
    · refine sent (fun h => ?_) h
      exact (Table.mem_scopesOf_upsert.mp h).symm.imp_right fun e => congrArg some e.symm
    · exact .inl h
  | revoke s₁ reason revokedBy t =>
    exact sent (fun h => .inl (Table.mem_scopesOf_revoke.mp h).2) h

/-- a scope that was revoked has no row -/
theorem row_revoked {reason revokedBy : Str} {t n : Int}
    (h : (backend _ (.revoke s reason revokedBy t) w).1 = .ok n) {s' : BlockScope}
    (hs' : s' ∈ scopesOf (backend _ (.revoke s reason revokedBy t) w).2.table.rows) :
    s' ≠ s ∧ s' ∈ scopesOf w.table.rows := by
  rcases hx : backend _ (.revoke s reason revokedBy t) w with ⟨r, w'⟩
  rw [hx] at h hs'
  obtain rfl : r = .ok n := h
  obtain ⟨-, -, hrun⟩ := sendTable_ok hx
  obtain ⟨-, rfl⟩ := Prod.mk.inj hrun
  exact Table.mem_scopesOf_revoke.mp hs'

/-- the key a call sets is that of a row it was shown or of the scope it blocks -/
theorem set_unrecached {j : Job Cmd Exc Answer Op} {β : Type} {c : Cmd β}
    (hi : j.op.Issue b st j.log c) (hu : Unrecached st s True j c) :
    c.setKey ≠ some (st.redis.key s) := by
  obtain ⟨hblock, hshown⟩ := hu trivial
  intro hk
  cases c with
  | set k v ex =>
    obtain rfl := Option.some.inj hk
    rcases hi with ⟨e, -⟩ | ⟨s', e, -, hs | ⟨a, ttl, ho⟩⟩
    · exact absurd e (key_ne_warmKey st.redis s)
    · exact hshown hk hs
    · exact hblock s' a ttl ho e.symm
  | _ => cases hk

/-- nor does it create a row under the key -/
theorem creates_unrecached {j : Job Cmd Exc Answer Op} {β : Type} {c : Cmd β} {s' : BlockScope}
    (hi : j.op.Issue b st j.log c) (hu : Unrecached st s True j c) (hc : c.creates = some s') :
    st.redis.key s' ≠ st.redis.key s := by
  cases c with
  | updateOrCreate s₁ a e t =>
    obtain rfl := Option.some.inj hc
    obtain ⟨-, ⟨a', ho⟩, -⟩ := hi
    exact (hu trivial).1 s₁ a' none ho
  | _ => cases hc

end

/-! ## up to the return of the unblock -/

/-- the release as it is being made -/
structure Releasing (b : Builtins) (st : TieredBlockStore) (s : BlockScope) (w : Nat)
    (p : Workers) : Prop where
  sane : Sane b st p
  order : ∀ j, p.jobs w = some j → Revoked s j.log → Dropped (st.redis.key s) j.log
  key : Dropping st s w p → p.shared.read (st.redis.key s) = none
  rows : Revoking s w p → ∀ s' ∈ scopesOf p.shared.table.rows, st.redis.key s' ≠ st.redis.key s

section
variable {b : Builtins} {st : TieredBlockStore} {s : BlockScope} {w : Nat} {p p' : Workers}
  {a : Turn}

theorem not_dropped_nil {k : Str} : ¬ Dropped k [] := by
  rintro ⟨n, hm⟩
  exact absurd hm List.not_mem_nil

theorem not_revoked_nil : ¬ Revoked s [] := by
  rintro ⟨reason, revokedBy, t, n, hm⟩
  exact absurd hm List.not_mem_nil

theorem Releasing.dropping (h : Releasing b st s w p) (hr : Revoking s w p) :
    Dropping st s w p := by
  obtain ⟨j, hj, hr⟩ := hr
  exact ⟨j, hj, h.order j hj hr⟩

/-- a worker that is idle has released nothing -/
theorem releasing_start (h : Sane b st p) (hj : p.jobs w = none) : Releasing b st s w p where
  sane := h
  order := by
    intro j hj'
    rw [hj] at hj'
    cases hj'
  key := by
    rintro ⟨j, hj', -⟩
    rw [hj] at hj'
    cases hj'
  rows := by
    rintro ⟨j, hj', -⟩
    rw [hj] at hj'
    cases hj'

/-- a job of `w` that does no more than the one in `p` -/
theorem Releasing.fewer (h : Releasing b st s w p) (hsane : Sane b st p')
    (hjobs : ∀ j, p'.jobs w = some j → p.jobs w = some j ∨ j.log = [])
    (hkey : p.shared.read (st.redis.key s) = none → p'.shared.read (st.redis.key s) = none)
    (hrows : p'.shared.table = p.shared.table) : Releasing b st s w p' where
  sane := hsane
  order j hj hr := by
    rcases hjobs j hj with hj | e
    · exact h.order j hj hr
    · rw [e] at hr
      exact absurd hr not_revoked_nil
  key := by
    rintro ⟨j, hj, hd⟩
    rcases hjobs j hj with hj | e
    · exact hkey (h.key ⟨j, hj, hd⟩)
    · rw [e] at hd
      exact absurd hd not_dropped_nil
  rows := by
    rintro ⟨j, hj, hr⟩
    rcases hjobs j hj with hj | e
    · rw [hrows]
      exact h.rows ⟨j, hj, hr⟩
    · rw [e] at hr
      exact absurd hr not_revoked_nil

variable (hpg : st.pg = true)
include hpg

/-- **one step of the run up to the return** -/
theorem releasing_act (h : Releasing b st s w p) (hG : BeforeRelease st s w p a)
    (ha : turn b st p a = some p') : Releasing b st s w p' := by
  have hsane := sane_act hpg h.sane ha
  rcases act_cases _ _ _ ha with ⟨u, o, rfl, -, rfl⟩ | ⟨u, j, β, c, k, rfl, hj, hr, rfl⟩ |
    ⟨u, j, r, rfl, -, -, rfl⟩ | ⟨x, rfl, rfl⟩
  · refine h.fewer hsane (fun j hj => ?_) id rfl
    rcases job_cases hj with ⟨-, e⟩ | ⟨-, hj⟩
    · cases e
      exact .inr rfl
    · exact .inl hj
  · obtain ⟨hunre, hshare⟩ := hG u j rfl hj β c k hr
    have hissue := h.sane.issue hj hr
    have hkey : Dropping st s w p → (backend β c p.shared).2.read (st.redis.key s) = none :=
      fun hD => key_gone (h.key hD) (set_unrecached hissue fun _ => hunre hD)
    have hrows : Revoking s w p → ∀ s' ∈ scopesOf (backend β c p.shared).2.table.rows,
        st.redis.key s' ≠ st.redis.key s := by
      intro hR s' hs'
      rcases row_old hs' with hs' | hc
      · exact h.rows hR s' hs'
      · exact creates_unrecached hissue (fun _ => hunre (h.dropping hR)) hc
    refine ⟨hsane, ?_, ?_, ?_⟩
    · intro j' hj' hrev
      rcases job_cases hj' with ⟨rfl, e⟩ | ⟨-, hj'⟩
      · cases e
        obtain ⟨reason, revokedBy, t, n, hm⟩ := hrev
        rcases List.mem_cons.mp hm with he | hm
        · generalize hx : (backend β c p.shared).1 = r at he
          cases he
          exact hissue.2.mono (List.suffix_cons _ _)
        · exact (h.order j hj ⟨reason, revokedBy, t, n, hm⟩).mono (List.suffix_cons _ _)
      · exact h.order j' hj' hrev
    · rintro ⟨j', hj', hd⟩
      rcases job_cases hj' with ⟨rfl, e⟩ | ⟨-, hj'⟩
      · cases e
        obtain ⟨n, hm⟩ := hd
        rcases List.mem_cons.mp hm with he | hm
        · -- the step that drops the key
          generalize hx : (backend β c p.shared).1 = r at he
          cases he
          exact warm_dropped hx
        · exact hkey ⟨j, hj, n, hm⟩
      · exact hkey ⟨j', hj', hd⟩
    · rintro ⟨j', hj', hrev⟩
      rcases job_cases hj' with ⟨rfl, e⟩ | ⟨-, hj'⟩
      · cases e
        obtain ⟨reason, revokedBy, t, n, hm⟩ := hrev
        rcases List.mem_cons.mp hm with he | hm
        · -- the step that revokes the row
          generalize hx : (backend β c p.shared).1 = r at he
          cases he
          intro s' hs' hk
          obtain ⟨hne, hs'⟩ := row_revoked hx hs'
          exact hne (hshare rfl rfl s' hs' hk)
        · exact hrows ⟨j, hj, reason, revokedBy, t, n, hm⟩
      · exact hrows ⟨j', hj', hrev⟩
  · refine h.fewer hsane (fun j hj => ?_) id rfl
    rcases job_cases hj with ⟨-, e⟩ | ⟨-, hj⟩
    · cases e
    · exact .inl hj
  · exact h.fewer hsane (fun j hj => .inl hj) (fun hn => key_gone_env hn x) (x.table _)

omit hpg

/-! ## from the return on -/

/-- the release is in force -/
structure Released (b : Builtins) (st : TieredBlockStore) (s : BlockScope) (p : Workers) :
    Prop where
  sane : Sane b st p
  free : Agrees b (.freeing st s False False nofun) p.shared

/-- **an unblock that has returned is in force** -/
theorem Releasing.released (h : Releasing b st s w p) {j : Job Cmd Exc Answer Op}
    {reason revokedBy : Str} {x : Answer} (hj : p.jobs w = some j)
    (ho : j.op = .unblock s reason revokedBy) (hr : j.rest = .done (.ok x)) :
    Released b st s p := by
  have hm := h.sane.jobs w j hj
  rw [hr] at hm
  have hfin := hm.2 x rfl trivial
  rw [ho] at hfin
  obtain ⟨hdrop, hrev⟩ := hfin
  have hkey := h.key ⟨j, hj, hdrop⟩
  have hrows := h.rows ⟨j, hj, hrev⟩
  refine ⟨h.sane, h.sane.world.permanent, nofun, ?_, ?_, ?_⟩
  · intro row hrow hu
    obtain ⟨hs, ha⟩ := h.sane.world.rows row hrow hu
    exact ⟨⟨hs, hrows _ (Table.mem_scopesOf.mpr ⟨row, hrow, hu, rfl⟩)⟩, ha⟩
  · intro s' t v ht hg
    obtain ⟨-, hd⟩ := h.sane.world.hits s' t v ht hg
    refine ⟨fun e => ?_, hd⟩
    have hv : p.shared.read (st.redis.key s') = some v := ExpMap.get_later hg ht
    rw [show st.redis.key s' = st.redis.key s from e, hkey] at hv
    cases hv
  · intro t text ht hg
    exact (h.sane.world.warm t text ht hg).mono b nofun

/-- **a command of any operation keeps the release in force**, unless it writes the key back -/
theorem freeing_keeps {j : Job Cmd Exc Answer Op} {β : Type} {c : Cmd β}
    (hi : j.op.Issue b st j.log c) (hu : Unrecached st s True j c) :
    Keeps b (.freeing st s False False nofun) c := by
  have hset := set_unrecached hi hu
  cases c with
  | set k v ex =>
    rcases hi with ⟨rfl, rows, hl, hc⟩ | ⟨s', rfl, hd, -⟩
    · exact .inl ⟨rfl, hc.mono b nofun⟩
    · exact .inr ⟨s', rfl, fun _ e => hset (congrArg some e), hd⟩
  | updateOrCreate s' a e t => exact ⟨hi.1, fun hs' => ⟨hs', creates_unrecached hi hu rfl⟩⟩
  | revoke s' reason revokedBy t => exact id
  | now => trivial
  | get k => trivial
  | mget ks => trivial
  | delete k => trivial
  | scan pre => trivial
  | activeRow s' t => trivial
  | activeRows ss t => trivial
  | allActive t => trivial

include hpg

theorem released_act (h : Released b st s p) (hG : AfterRelease st s p a)
    (ha : turn b st p a = some p') : Released b st s p' := by
  have hsane := sane_act hpg h.sane ha
  rcases act_cases _ _ _ ha with ⟨u, o, rfl, -, rfl⟩ | ⟨u, j, β, c, k, rfl, hj, hr, rfl⟩ |
    ⟨u, j, r, rfl, -, -, rfl⟩ | ⟨x, rfl, rfl⟩
  · exact ⟨hsane, h.free⟩
  · exact ⟨hsane, h.free.step (freeing_keeps (h.sane.issue hj hr) (hG u j rfl hj β c k hr))⟩
  · exact ⟨hsane, h.free⟩
  · exact ⟨hsane, h.free.env x⟩

omit hpg

/-! ## a read that starts then -/

/-- a read of the scope alone -/
def Asks (s : BlockScope) (q : Op) : Prop := q = .getActive s ∨ q = .firstActive [s]

/-- the read found nothing -/
def Clear (l : CallLog) (r : Except Exc Answer) : Prop := r = .ok (.found none)

variable (hlim : encodable st.redis.keyPrefix = true ∧ 0 < st.permanentCacheTtl)

theorem clear_of_answers {q : Call (Option BlockEntry)} {l : CallLog}
    (h : Meets (reads b (.freeing st s True True fun _ => hlim)
      (Answers (.freeing st s True True fun _ => hlim) [s])) l q) :
    Meets (reads b (.freeing st s True True fun _ => hlim) Clear) l
      (q >>= fun o => pure (Answer.found o)) := by
  refine meets_bind h ?_ ?_
  · intro l' o _ ha
    cases o with
    | none => rfl
    | some e =>
      obtain ⟨s', hs', hk⟩ := ha.sound e rfl
      obtain rfl := List.mem_singleton.mp hs'
      exact absurd rfl hk
  · intro l' e _ ha
    rcases ha.raises e rfl with ⟨-, hn⟩ | ⟨-, hn⟩
    · exact absurd ⟨trivial, trivial⟩ hn
    · exact absurd trivial hn

theorem clear_prog (hpg : st.pg = true) (hs : s.encodable = true) {q : Op} (hq : Asks s q) :
    Meets (reads b (.freeing st s True True fun _ => hlim) Clear) [] (q.prog b st) := by
  rcases hq with rfl | rfl
  · exact clear_of_answers hlim (reads_getActive hpg fun _ => hs)
  · refine clear_of_answers hlim (reads_firstActive hpg fun _ s' hs' => ?_)
    rw [List.mem_singleton.mp hs']
    exact hs

/-- what a read relies on, of the next command -/
theorem Released.reply (h : Released b st s p) {v : Nat} (hG : WhileLooking st s v p a) :
    StepMeets (fun u p j _ c => u = v →
      (reads b (.freeing st s True True fun _ => hlim) Clear).issue j.log c →
      (reads b (.freeing st s True True fun _ => hlim) Clear).reply j.log c
        (backend _ c p.shared).1) p a := by
  intro u j ha hj β c k hr hu hi
  have hfree : Agrees b (.freeing st s True True fun _ => hlim) p.shared :=
    ⟨h.free.permanent, h.free.banned, h.free.rows, h.free.hits, h.free.warm⟩
  refine hfree.reply (fun _ => hG.2 u j ha hj β c k hr hu) (fun _ => ?_) hi.1 fun s' hk => ?_
  · unfold World.fault
    rw [h.sane.quiet]
    rfl
  · rintro (hc | ⟨hc, -⟩)
    · exact hc.elim
    · exact hc.elim

end

/-- **No release is undone**, in a run of steps that do not write the key back: once `unblock(s)`
has returned, every read of `s` that starts later answers that there is no block. -/
theorem release_not_undone (b : Builtins) (st : TieredBlockStore) (hpg : st.pg = true)
    (hpre : encodable st.redis.keyPrefix = true) (httl : 0 < st.permanentCacheTtl) (t : Int)
    (s : BlockScope) (hs : s.encodable = true) (reason revokedBy : Str)
    (as₀ as₁ as₂ as₃ : List Turn) (p₀ p₁ p₂ p₃ : Workers) (w v : Nat) (x : Answer) (q : Op)
    (r : Except Exc Answer) (h₀ : turns b st (Pool.idle (World.empty t)) as₀ = some p₀)
    (h₁ : turns b st p₀ (.call w (.unblock s reason revokedBy) :: as₁) = some p₁)
    (hw : Act.ret w ∉ as₁) (hret : p₁.result w = some (.ok x))
    (hG₁ : AllTurns b st (BeforeRelease st s w) p₀ (.call w (.unblock s reason revokedBy) :: as₁))
    (h₂ : turns b st p₁ as₂ = some p₂) (hG₂ : AllTurns b st (AfterRelease st s) p₁ as₂)
    (h₃ : turns b st p₂ (.call v q :: as₃) = some p₃)
    (hG₃ : AllTurns b st (WhileLooking st s v) p₂ (.call v q :: as₃))
    (hq : Asks s q) (hv : Act.ret v ∉ as₃) (hr : p₃.result v = some r) :
    r = .ok (.found none) := by
  have hsane : Sane b st p₀ :=
    run_inv backend (Op.prog b st) Env.apply (G := fun _ _ => True) (A := fun _ => True)
      (fun p a p' hI _ _ ha => sane_act hpg hI ha) (sane_idle t) (along_true _ _ _ _ _)
      (fun _ _ => trivial) h₀
  obtain ⟨pu, hu, -⟩ := Option.bind_eq_some_iff.mp h₁
  have hmake : Releasing b st s w p₁ :=
    run_inv backend (Op.prog b st) Env.apply (A := fun _ => True)
      (fun p a p' hI hG _ ha => releasing_act hpg hI hG ha)
      (releasing_start hsane (op_start hu).1) hG₁ (fun _ _ => trivial) h₁
  obtain ⟨ju, hju, hop⟩ := op_some (op_run h₁ hw)
  obtain ⟨ju', hju', hdone⟩ := result_some hret
  obtain rfl : ju' = ju := Option.some.inj (hju'.symm.trans hju)
  have hfree : Released b st s p₂ :=
    run_inv backend (Op.prog b st) Env.apply (A := fun _ => True)
      (fun p a p' hI hG _ ha => released_act hpg hI hG ha) (hmake.released hju hop hdone) hG₂
      (fun _ _ => trivial) h₂
  obtain ⟨pc, hc, h₃⟩ := Option.bind_eq_some_iff.mp h₃
  have hread := run_inv backend (Op.prog b st) Env.apply (A := fun a => a ≠ Act.ret v)
    (I := fun p => Released b st s p ∧
      At b (.freeing st s True True fun _ => ⟨hpre, httl⟩) Clear v p)
    (fun p a p' hI hG hA ha =>
      ⟨released_act hpg hI.1 hG.1 ha, at_act hI.2 hA (hI.1.reply _ hG) ha⟩)
    ⟨released_act hpg hfree hG₃.1.1 hc, at_start (clear_prog _ hpg hs hq) hc⟩ (hG₃.2 pc hc)
    (fun a ha e => hv (e ▸ ha)) h₃
  obtain ⟨l, hclear⟩ := hread.2.result hr
  exact hclear

/-! ## runs on fixed inputs -/

instance (st : TieredBlockStore) (s : BlockScope) (w : Nat) (p : Workers) :
    Decidable (Dropping st s w p) :=
  decidable_of_iff (∃ j ∈ p.jobs w, Dropped (st.redis.key s) j.log) Iff.rfl

/-- the operation blocks a scope whose key is `k` -/
def Op.blocksKey (st : TieredBlockStore) (k : Str) : Op → Bool
  | .block s _ _ => decide (st.redis.key s = k)
  | _ => false

instance (st : TieredBlockStore) (s : BlockScope) (dropped : Prop) [Decidable dropped]
    (j : Job Cmd Exc Answer Op) {β : Type} (c : Cmd β) : Decidable (Unrecached st s dropped j c) :=
  decidable_of_iff (dropped → j.op.blocksKey st (st.redis.key s) = false ∧
      (c.setKey = some (st.redis.key s) → ¬ Shown st.redis (st.redis.key s) j.log)) <| by
    refine imp_congr_right fun _ => and_congr_left fun _ => ⟨?_, fun h => ?_⟩
    · rintro h s' a ttl ho
      rw [ho] at h
      exact of_decide_eq_false h
    · cases ho : j.op with
      | block s' a ttl => exact decide_eq_false (h s' a ttl ho)
      | _ => rfl

instance (st : TieredBlockStore) (s : BlockScope) (w : World) : Decidable (Sole st s w) :=
  inferInstanceAs (Decidable (∀ s' ∈ scopesOf w.table.rows, _ → s' = s))

instance (st : TieredBlockStore) (s : BlockScope) (w : Nat) (p : Workers) (a : Turn) :
    Decidable (BeforeRelease st s w p a) :=
  inferInstanceAs (Decidable (StepMeets _ p a))

instance (st : TieredBlockStore) (s : BlockScope) (p : Workers) (a : Turn) :
    Decidable (AfterRelease st s p a) :=
  inferInstanceAs (Decidable (StepMeets _ p a))

instance (st : TieredBlockStore) (s : BlockScope) (v : Nat) (p : Workers) (a : Turn) :
    Decidable (WhileLooking st s v p a) :=
  inferInstanceAs (Decidable (_ ∧ StepMeets _ p a))

/-- worker 0 bans the scope, Redis is flushed, and worker 1, reading, lists the row and writes the
key of the scope -/
def banAndList : List Turn :=
  banAlone ++ [.ret 0, .env (.evict fun _ => true)] ++
    .call 1 (.getActive .sample) :: List.replicate 6 (.step 1)

/-- the unblock of worker 0; worker 2, reading, lists the rows after the revocation -/
def releaseOver : List Turn :=
  [.step 0, .call 2 (.firstActive [.sample]), .step 2, .step 2, .step 2, .step 0, .step 0, .step 2,
    .step 0]

/-- both readers write their sentinels, the last of which lists the scope -/
def lookAfter : List Turn := [.step 2, .step 1, .step 1, .ret 1, .env (.advance 5)]

def lookOver : List Turn := [.step 3, .step 2, .step 3, .step 3, .step 3]

theorem release_not_undone_overlapping :
    ∃ p₀ p₁ p₂ p₃ x r,
      turns .sample .sample (Pool.idle (World.empty 0)) banAndList = some p₀ ∧
      turns .sample .sample p₀ (.call 0 (.unblock .sample [] []) :: releaseOver) = some p₁ ∧
      p₁.result 0 = some (.ok x) ∧ turns .sample .sample p₁ lookAfter = some p₂ ∧
      turns .sample .sample p₂ (.call 3 (.getActive .sample) :: lookOver) = some p₃ ∧
      p₃.result 3 = some r ∧ r = .ok (.found none) := by
  have h : ((turns .sample .sample (Pool.idle (World.empty 0)) banAndList).any fun p₀ =>
      decide (AllTurns .sample .sample (BeforeRelease .sample .sample 0) p₀
        (.call 0 (.unblock .sample [] []) :: releaseOver)) &&
      (turns .sample .sample p₀ (.call 0 (.unblock .sample [] []) :: releaseOver)).any fun p₁ =>
      returnedBy (some p₁) 0 (fun _ => true) &&
      decide (AllTurns .sample .sample (AfterRelease .sample .sample) p₁ lookAfter) &&
      (turns .sample .sample p₁ lookAfter).any fun p₂ =>
      decide (AllTurns .sample .sample (WhileLooking .sample .sample 3) p₂
        (.call 3 (.getActive .sample) :: lookOver)) &&
      returnedBy (turns .sample .sample p₂ (.call 3 (.getActive .sample) :: lookOver)) 3
        (fun _ => true)) = true := by
    decide +kernel
  simp only [Option.any_eq_true, Bool.and_eq_true, decide_eq_true_eq] at h
  obtain ⟨p₀, h₀, hG₁, p₁, h₁, ⟨hret, hG₂⟩, p₂, h₂, hG₃, hread⟩ := h
  obtain ⟨p, x, hp, hx, -⟩ := of_returnedBy hret
  cases hp
  obtain ⟨p₃, y, h₃, hy, -⟩ := of_returnedBy hread
  exact ⟨p₀, p₁, p₂, p₃, x, _, h₀, h₁, hx, h₂, h₃, hy, release_not_undone .sample .sample rfl
    (by decide) (by decide) 0 .sample (by decide) [] [] banAndList releaseOver lookAfter lookOver
    p₀ p₁ p₂ p₃ 0 3 x (.getActive .sample) _ h₀ h₁ (by simp [releaseOver]) hx hG₁ h₂ hG₂ h₃ hG₃
    (.inl rfl) (by simp [lookOver]) hy⟩

def Op.unblocks (s : BlockScope) : Op → Bool
  | .unblock s' _ _ => decide (s' = s)
  | _ => false

theorem Op.of_unblocks {s : BlockScope} {o : Op} (h : o.unblocks s = true) :
    ∃ reason revokedBy, o = .unblock s reason revokedBy := by
  unfold Op.unblocks at h
  split at h
  · rename_i s' reason revokedBy
    obtain rfl := of_decide_eq_true h
    exact ⟨reason, revokedBy, rfl⟩
  · cases h

def Answer.isEntry : Answer → Bool
  | .found (some _) => true
  | _ => false

theorem Answer.of_isEntry {x : Answer} (h : x.isEntry = true) : ∃ e, x = .found (some e) := by
  unfold Answer.isEntry at h
  split at h
  · exact ⟨_, rfl⟩
  · cases h

/-- worker 0 unblocks the scope, alone -/
def releaseAlone : List Turn := .call 0 (.unblock .sample [] []) :: List.replicate 4 (.step 0)

/-- the ban has returned and Redis is cold; worker 1, reading, has listed its row when worker 0
unblocks the scope -/
def staleRelease : List Turn :=
  banAlone ++ [.ret 0, .env (.evict fun _ => true)] ++
    .call 1 (.getActive .sample) :: List.replicate 5 (.step 1) ++ releaseAlone

/-- worker 1 goes on to write the key, worker 2 reads -/
def staleRecache : List Turn := [.step 1] ++ .call 2 (.getActive .sample) :: [.step 2]

theorem release_not_undone_stale :
    ∃ p₁ p₂ reason revokedBy x e,
      turns .sample .sample (Pool.idle (World.empty 0)) staleRelease = some p₁ ∧
      p₁.op 0 = some (.unblock .sample reason revokedBy) ∧ p₁.result 0 = some (.ok x) ∧
      turns .sample .sample p₁ staleRecache = some p₂ ∧
      p₂.op 2 = some (.getActive .sample) ∧ p₂.result 2 = some (.ok (.found (some e))) := by
  have hfree : (returnedBy (turns .sample .sample (Pool.idle (World.empty 0)) staleRelease) 0
        (fun _ => true) &&
      opBy (turns .sample .sample (Pool.idle (World.empty 0)) staleRelease) 0
        (Op.unblocks .sample)) = true := by
    decide +kernel
  have hread : ((turns .sample .sample (Pool.idle (World.empty 0)) staleRelease).all fun p =>
      returnedBy (turns .sample .sample p staleRecache) 2 Answer.isEntry &&
      opBy (turns .sample .sample p staleRecache) 2 (Op.gets .sample)) = true := by
    decide +kernel
  obtain ⟨hret, hop⟩ := Bool.and_eq_true_iff.mp hfree
  obtain ⟨p₁, x, h₁, hx, -⟩ := of_returnedBy hret
  rw [h₁] at hop hread
  obtain ⟨o, hop, hun⟩ := of_opBy hop
  obtain ⟨reason, revokedBy, rfl⟩ := Op.of_unblocks hun
  obtain ⟨hret, hgets⟩ := Bool.and_eq_true_iff.mp (show _ = true from hread)
  obtain ⟨p₂, y, h₂, hy, hentry⟩ := of_returnedBy hret
  obtain ⟨e, rfl⟩ := Answer.of_isEntry hentry
  rw [h₂] at hgets
  obtain ⟨o, ho, hgets⟩ := of_opBy hgets
  obtain rfl := Op.of_gets hgets
  exact ⟨p₁, p₂, reason, revokedBy, x, e, h₁, hop, hx, h₂, ho, hy⟩

end SecAudit
