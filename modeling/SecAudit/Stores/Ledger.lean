import SecAudit.Data.Ledger
import SecAudit.Stores.Apart
import SecAudit.Stores.Workers

/-!
# The table as a ledger

`PermanentBlock` rows are never deleted: the table is to tell who was banned and unbanned, why and
when.  Workers share it, and calls fail in between.

* `Row.Becomes`     what may become of a row: once revoked it stays as it is;
* `Row.AccountedBy` the calls that made a row what it is;
* `Op.Writes`, `only_op`  the rows an operation can write;
* `Trail`, `trail_act`  what a step keeps;
* `table_ledger`    so it is in every run, whatever fails.
-/

set_option linter.unusedVariables false

namespace SecAudit
open Py Prog

/-! ## rows -/

/-- `r'` may have become of `r` -/
structure Row.Becomes (r r' : Row) : Prop where
  scope : r'.scope = r.scope
  createdAt : r'.createdAt = r.createdAt
  revoked : r.unrevoked = false → r' = r

theorem Row.Becomes.refl (r : Row) : r.Becomes r := ⟨rfl, rfl, fun _ => rfl⟩

theorem Row.Becomes.trans {r r' r'' : Row} (h : r.Becomes r') (h' : r'.Becomes r'') :
    r.Becomes r'' where
  scope := h'.scope.trans h.scope
  createdAt := h'.createdAt.trans h.createdAt
  revoked hr := by
    obtain rfl := h.revoked hr
    exact h'.revoked hr

/-- the row has been revoked -/
def Row.Over (r : Row) : Prop := r.unrevoked = false

/-- the rows are of one scope -/
def Row.Clash (r r' : Row) : Prop := r.scope = r'.scope

/-- calls that made `r` what it is: one that blocked with its keywords and, when it is revoked, one
that unblocked for its reason and by its author -/
structure Row.AccountedBy (as : List Turn) (r : Row) : Prop where
  endless : r.expiresAt = none
  blocked : ∃ w, Act.call w (Op.block r.scope r.args none) ∈ as
  unblocked : r.unrevoked = false →
    ∃ w, Act.call w (Op.unblock r.scope r.revokedReason r.revokedBy) ∈ as

theorem Row.AccountedBy.mono {as bs : List Turn} {r : Row} (h : r.AccountedBy as)
    (hs : as ⊆ bs) : r.AccountedBy bs where
  endless := h.endless
  blocked := h.blocked.imp fun w hw => hs hw
  unblocked hr := (h.unblocked hr).imp fun w hw => hs hw

namespace Table

variable {t : Table} {s : BlockScope} {a : BlockArgs} {now : Int} {reason revokedBy : Str}

/-- an upsert changes rows of the scope that are not revoked, or adds one -/
theorem upsert_cases (t : Table) (s : BlockScope) (a : BlockArgs) (now : Int) :
    (t.upsert s a none now).2.rows
        = t.rows.map (fun r => if r.blocks s then updated a none r else r) ∨
      ((∀ r ∈ t.rows, r.blocks s = false) ∧
        (t.upsert s a none now).2.rows = t.rows ++ [created s a none now]) := by
  unfold upsert
  split
  · exact .inl rfl
  · rename_i h
    exact .inr ⟨fun r hr => Bool.eq_false_iff.mpr (List.find?_eq_none.mp h r hr), rfl⟩

theorem becomes_updated (s : BlockScope) (a : BlockArgs) (r : Row) :
    r.Becomes (if r.blocks s then updated a none r else r) := by
  split
  · rename_i hb
    refine ⟨rfl, rfl, fun hr => ?_⟩
    rw [(blocks_iff.mp hb).2] at hr
    cases hr
  · exact .refl r

theorem grown_upsert : Grown Row.Becomes t.rows (t.upsert s a none now).2.rows := by
  rcases upsert_cases t s a now with h | ⟨-, h⟩ <;> rw [h]
  · exact grown_map (becomes_updated s a) _
  · exact grown_append Row.Becomes.refl _ _

theorem becomes_revoked (s : BlockScope) (reason revokedBy : Str) (now : Int) (r : Row) :
    r.Becomes (if r.blocks s then
      { r with revokedAt := some now, revokedReason := reason, revokedBy := revokedBy }
      else r) := by
  split
  · rename_i hb
    refine ⟨rfl, rfl, fun hr => ?_⟩
    rw [(blocks_iff.mp hb).2] at hr
    cases hr
  · exact .refl r

theorem grown_revoke : Grown Row.Becomes t.rows (t.revoke s reason revokedBy now).2.rows :=
  grown_map (becomes_revoked s reason revokedBy now) _

theorem successive_upsert (h : Successive Row.Over Row.Clash t.rows) :
    Successive Row.Over Row.Clash (t.upsert s a none now).2.rows := by
  rcases upsert_cases t s a now with hu | ⟨hn, hu⟩ <;> rw [hu]
  · refine h.map (fun r _ hr => ?_) fun r r' hc => ?_
    · rw [(becomes_updated s a r).revoked hr]
      exact hr
    · unfold Row.Clash at hc ⊢
      rwa [(becomes_updated s a r).scope, (becomes_updated s a r').scope] at hc
  · -- the new row comes after no unrevoked row of its scope
    refine h.concat fun r hr hc => ?_
    have hb := hn r hr
    unfold Row.blocks at hb
    rw [decide_eq_true (show r.scope = s from hc)] at hb
    exact hb

theorem successive_revoke (h : Successive Row.Over Row.Clash t.rows) :
    Successive Row.Over Row.Clash (t.revoke s reason revokedBy now).2.rows := by
  refine h.map (fun r _ hr => ?_) fun r r' hc => ?_
  · rw [(becomes_revoked s reason revokedBy now r).revoked hr]
    exact hr
  · unfold Row.Clash at hc ⊢
    rwa [(becomes_revoked s reason revokedBy now r).scope,
      (becomes_revoked s reason revokedBy now r').scope] at hc

theorem accounted_upsert {as : List Turn} {w : Nat} (h : ∀ r ∈ t.rows, r.AccountedBy as)
    (hcall : Act.call w (Op.block s a none) ∈ as) :
    ∀ r ∈ (t.upsert s a none now).2.rows, r.AccountedBy as := by
  intro r hr
  rcases upsert_cases t s a now with hu | ⟨-, hu⟩ <;> rw [hu] at hr
  · obtain ⟨r', hr', rfl⟩ := List.mem_map.mp hr
    split
    · rename_i hb
      obtain ⟨rfl, hun⟩ := blocks_iff.mp hb
      refine ⟨rfl, ⟨w, hcall⟩, fun hx => ?_⟩
      rw [show (updated a none r').unrevoked = r'.unrevoked from rfl, hun] at hx
      cases hx
    · exact h r' hr'
  · rcases List.mem_append.mp hr with hr | hr
    · exact h r hr
    · rw [List.mem_singleton.mp hr]
      exact ⟨rfl, ⟨w, hcall⟩, nofun⟩

theorem accounted_revoke {as : List Turn} {w : Nat} (h : ∀ r ∈ t.rows, r.AccountedBy as)
    (hcall : Act.call w (Op.unblock s reason revokedBy) ∈ as) :
    ∀ r ∈ (t.revoke s reason revokedBy now).2.rows, r.AccountedBy as := by
  intro r hr
  obtain ⟨r', hr', rfl⟩ := List.mem_map.mp hr
  split
  · rename_i hb
    obtain ⟨rfl, -⟩ := blocks_iff.mp hb
    exact ⟨(h r' hr').endless, (h r' hr').blocked, fun _ => ⟨w, hcall⟩⟩
  · exact h r' hr'

end Table

/-! ## what the operations write -/

/-- a row is written as the call says -/
def Op.Writes (o : Op) : (β : Type) → Cmd β → Prop
  | _, .updateOrCreate s a e _ => e = none ∧ o = .block s a none
  | _, .revoke s reason revokedBy _ => o = .unblock s reason revokedBy
  | _, _ => True

section
variable {b : Builtins} {st : TieredBlockStore} {o : Op}

theorem only_postgres_getActive (s : BlockScope) : Only o.Writes (Postgres.getActive s) :=
  (only_perform trivial).bind fun _ => (only_wrap (only_perform trivial)).bind fun _ =>
    only_done _

theorem only_postgres_firstActive (ss : List BlockScope) :
    Only o.Writes (Postgres.firstActive ss) := by
  unfold Postgres.firstActive
  split
  · exact only_done _
  · exact (only_perform trivial).bind fun _ => (only_wrap (only_perform trivial)).bind fun _ =>
      only_done _

theorem only_postgres_activeBlocks : Only o.Writes Postgres.activeBlocks :=
  (only_perform trivial).bind fun _ => (only_wrap (only_perform trivial)).bind fun _ =>
    only_done _

theorem only_redis_block (s : BlockScope) (a : BlockArgs) (ttl : Option Int) :
    Only o.Writes (st.redis.block b s a ttl) :=
  (only_perform trivial).bind fun _ => Only.ofExcept fun _ _ => Only.ofExcept fun _ _ =>
    (only_wrap (only_perform trivial)).bind fun _ => only_done _

theorem only_cacheEntry (e : BlockEntry) : Only o.Writes (st.cacheEntry b e) :=
  (only_redis_block _ _ _).bind fun _ => only_done _

theorem only_bestEffort {p : Call Unit} (hp : Only o.Writes p) :
    Only o.Writes (TieredBlockStore.bestEffort p) := by
  refine hp.catchWith fun e => ?_
  split
  · exact only_done _
  · exact only_done _

theorem only_cachePermanent (e : BlockEntry) : Only o.Writes (st.cachePermanent b e) :=
  only_bestEffort (only_cacheEntry e)

theorem only_invalidateWarm : Only o.Writes st.invalidateWarm :=
  only_bestEffort ((only_wrap (only_perform trivial)).bind fun _ => only_done _)

theorem only_cacheEach : ∀ l : List BlockEntry, Only o.Writes (st.cacheEach b l)
  | [] => only_done _
  | e :: l => (only_cacheEntry e).bind fun _ => only_cacheEach l

theorem only_rewarm : Only o.Writes (st.rewarm b) :=
  only_postgres_activeBlocks.bind fun l => (only_cacheEach l).bind fun _ =>
    Only.ofExcept fun _ _ => only_wrap (only_perform trivial)

theorem only_verifyMembers (members : List (Str × Str)) : ∀ ss : List BlockScope,
    Only o.Writes (st.verifyMembers b members ss)
  | [] => only_done _
  | s :: ss => by
    unfold TieredBlockStore.verifyMembers
    split
    · refine (only_postgres_getActive s).bind fun e => ?_
      cases e with
      | none => exact only_verifyMembers members ss
      | some e => exact (only_cachePermanent e).bind fun _ => only_done _
    · exact only_verifyMembers members ss

theorem only_verifyTypes (types : Option Json) (ss : List BlockScope) :
    Only o.Writes (st.verifyTypes b types ss) := by
  refine Only.ofExcept fun allowed _ => ?_
  dsimp only
  split
  · exact only_done _
  · refine (only_postgres_firstActive _).bind fun e => ?_
    cases e with
    | none => exact only_done _
    | some e => exact (only_cachePermanent e).bind fun _ => only_done _

theorem only_readWarm : Only o.Writes st.redis.readWarm := by
  refine (only_wrap (only_perform trivial)).bind fun raw => ?_
  cases raw with
  | none => exact only_done _
  | some text =>
    dsimp only
    split <;> exact only_done _

theorem only_answerWarmMiss (ss : List BlockScope) : Only o.Writes (st.answerWarmMiss b ss) := by
  refine only_readWarm.bind fun warm => ?_
  cases warm with
  | none => exact only_rewarm.bind fun _ => only_firstActive trivial
  | some warm =>
    dsimp only
    split
    · exact Only.ofExcept fun members _ => only_verifyMembers members ss
    · split
      · exact only_verifyTypes _ ss
      · exact only_done _

/-- **the rows an operation can write** -/
theorem only_op : Only o.Writes (o.prog b st) := by
  cases o with
  | block s a ttl =>
    refine Only.bind ?_ fun _ => only_done _
    unfold TieredBlockStore.block
    cases ttl with
    | some n => exact only_redis_block s a _
    | none =>
      dsimp only
      split
      · refine Only.bind ?_ fun e => (only_cachePermanent e).bind fun _ =>
          only_invalidateWarm.bind fun _ => only_done _
        show Only _ (perform Cmd.now >>= fun now => _)
        exact (only_perform trivial).bind fun _ =>
          (only_wrap (only_wrap (only_perform ⟨rfl, rfl⟩))).bind fun _ => only_done _
      · exact only_redis_block s a _
  | unblock s reason revokedBy =>
    refine Only.bind ?_ fun _ => only_done _
    refine (only_wrap (only_perform trivial)).bind fun count => ?_
    split
    · refine Only.bind ?_ fun _ => only_invalidateWarm.bind fun _ => only_done _
      exact (only_perform trivial).bind fun _ => only_wrap (only_perform rfl)
    · exact only_done _
  | getActive s =>
    refine Only.bind ?_ fun _ => only_done _
    refine (only_getActive trivial).bind fun hit => ?_
    cases hit with
    | some e => exact only_done _
    | none =>
      dsimp only
      split
      · exact only_answerWarmMiss _
      · exact only_done _
  | firstActive ss =>
    refine Only.bind ?_ fun _ => only_done _
    refine (only_firstActive trivial).bind fun hit => ?_
    cases hit with
    | some e => exact only_done _
    | none =>
      dsimp only
      split
      · exact only_done _
      · exact only_answerWarmMiss _

/-! ## runs -/

theorem send_table {β : Type} (w : World) (texts : List Str) (exc : Fault → Exc)
    (run : World → Except Exc β × World) :
    (w.send texts exc run).2.table = w.table ∨
      (w.send texts exc run).2.table = (run w.sent).2.table := by
  rcases @send_world _ w texts exc run with e | e | ⟨-, -, e⟩ <;> rw [e]
  · exact .inl rfl
  · exact .inl rfl
  · exact .inr rfl

theorem backend_updateOrCreate (s : BlockScope) (a : BlockArgs) (e : Option Int) (t : Int)
    (w : World) : backend _ (.updateOrCreate s a e t) w = if a.writable then
      w.sendTable (s.texts ++ a.texts) fun w =>
        (.ok (w.table.upsert s a e t).1, { w with table := (w.table.upsert s a e t).2 })
      else (.error .jsonError, w) := rfl

/-- what a command of an operation does to the table -/
theorem table_step {β : Type} {c : Cmd β} (hc : o.Writes β c) (w : World) :
    (backend _ c w).2.table = w.table ∨
    (∃ s a t, o = .block s a none ∧ (backend _ c w).2.table = (w.table.upsert s a none t).2) ∨
    ∃ s reason revokedBy t, o = .unblock s reason revokedBy ∧
      (backend _ c w).2.table = (w.table.revoke s reason revokedBy t).2 := by
  cases c with
  | updateOrCreate s a e t =>
    obtain ⟨rfl, ho⟩ := hc
    rw [backend_updateOrCreate]
    split
    · exact (send_table w _ _ _).imp_right fun e => .inl ⟨s, a, t, ho, e⟩
    · exact .inl rfl
  | revoke s reason revokedBy t =>
    exact (send_table w _ _ _).imp_right fun e => .inr ⟨s, reason, revokedBy, t, hc, e⟩
  | set k v ex =>
    refine .inl ((send_table w _ _ _).elim id fun e => e.trans ?_)
    split <;> rfl
  | now => exact .inl rfl
  | get k => exact .inl ((send_table w _ _ _).elim id id)
  | mget ks => exact .inl ((send_table w _ _ _).elim id id)
  | delete k => exact .inl ((send_table w _ _ _).elim id id)
  | scan pre => exact .inl ((send_table w _ _ _).elim id id)
  | activeRow s t => exact .inl ((send_table w _ _ _).elim id id)
  | activeRows ss t => exact .inl ((send_table w _ _ _).elim id id)
  | allActive t => exact .inl ((send_table w _ _ _).elim id id)

/-- what holds of the table, and of the calls in progress, after the steps `as` -/
structure Trail (as : List Turn) (p : Workers) : Prop where
  calls : ∀ w j, p.jobs w = some j → Act.call w j.op ∈ as
  jobs : AllMeet (fun o => Contract.only o.Writes) p
  successive : Successive Row.Over Row.Clash p.shared.table.rows
  accounted : ∀ r ∈ p.shared.table.rows, r.AccountedBy as

theorem trail_idle (t : Int) (faults : List (Option Fault)) :
    Trail [] (Pool.idle { World.empty t with faults := faults }) where
  calls := nofun
  jobs := allMeet_idle _ _
  successive := List.Pairwise.nil
  accounted r hr := absurd hr List.not_mem_nil

/-- **one step keeps it**, and the table grows -/
theorem trail_act {as : List Turn} {p p' : Workers} {a : Turn} (h : Trail as p)
    (ha : turn b st p a = some p') :
    Trail (as ++ [a]) p' ∧ Grown Row.Becomes p.shared.table.rows p'.shared.table.rows := by
  have hsub : as ⊆ as ++ [a] := List.subset_append_left _ _
  have hjobs := allMeet_act backend (Op.prog b st) Env.apply (fun o => only_op.meets [])
    (fun w j hj β c k hr => trivial) h.jobs ha
  have hkept : ∀ r ∈ p.shared.table.rows, r.AccountedBy (as ++ [a]) :=
    fun r hr => (h.accounted r hr).mono hsub
  rcases act_cases _ _ _ ha with ⟨w, o, rfl, -, rfl⟩ | ⟨w, j, β, c, k, rfl, hj, hr, rfl⟩ |
    ⟨w, j, r, rfl, -, -, rfl⟩ | ⟨x, rfl, rfl⟩
  · refine ⟨⟨fun v j hj => ?_, hjobs, h.successive, hkept⟩, Grown.refl Row.Becomes.refl _⟩
    rcases job_cases hj with ⟨rfl, e⟩ | ⟨-, hj⟩
    · cases e
      exact List.mem_append_right _ List.mem_cons_self
    · exact hsub (h.calls v j hj)
  · have hcalls : ∀ v j', ((({ p with shared := (backend _ c p.shared).2 } : Workers).setJob w
        (some (j.after c (backend _ c p.shared).1 (k (backend _ c p.shared).1)))).jobs v = some j') →
        Act.call v j'.op ∈ as ++ [Act.step w] := by
      intro v j' hj'
      rcases job_cases hj' with ⟨rfl, e⟩ | ⟨-, hj'⟩
      · cases e
        exact hsub (h.calls v j hj)
      · exact hsub (h.calls v j' hj')
    have hcall := hsub (h.calls w j hj)
    have hc : j.op.Writes β c := by
      have := h.jobs w j hj
      rw [hr] at this
      exact this.1
    rcases table_step hc p.shared with e | ⟨s, a, t, ho, e⟩ | ⟨s, reason, revokedBy, t, ho, e⟩
    · refine ⟨⟨hcalls, hjobs, ?_, ?_⟩, ?_⟩ <;> rw [Pool.setJob_shared, e]
      · exact h.successive
      · exact hkept
      · exact Grown.refl Row.Becomes.refl _
    · rw [ho] at hcall
      refine ⟨⟨hcalls, hjobs, ?_, ?_⟩, ?_⟩ <;> rw [Pool.setJob_shared, e]
      · exact Table.successive_upsert h.successive
      · exact Table.accounted_upsert hkept hcall
      · exact Table.grown_upsert
    · rw [ho] at hcall
      refine ⟨⟨hcalls, hjobs, ?_, ?_⟩, ?_⟩ <;> rw [Pool.setJob_shared, e]
      · exact Table.successive_revoke h.successive
      · exact Table.accounted_revoke hkept hcall
      · exact Table.grown_revoke
  · refine ⟨⟨fun v j hj => ?_, hjobs, h.successive, hkept⟩, Grown.refl Row.Becomes.refl _⟩
    rcases job_cases hj with ⟨-, e⟩ | ⟨-, hj⟩
    · cases e
    · exact hsub (h.calls v j hj)
  · refine ⟨⟨fun v j hj => hsub (h.calls v j hj), hjobs, ?_, ?_⟩, ?_⟩ <;>
      rw [show (x.apply p.shared).table = p.shared.table from x.table _]
    · exact h.successive
    · exact hkept
    · exact Grown.refl Row.Becomes.refl _

/-- **the table is a ledger**, in every run of the workers and whatever fails: no row is lost, a
revoked row stays as it is, a scope gets a new row only once its last one was revoked, and each row
and each revocation is that of a call that was made -/
theorem table_ledger {t : Int} {faults : List (Option Fault)} {as bs : List Turn} {p p' : Workers}
    (h : turns b st (Pool.idle { World.empty t with faults := faults }) as = some p)
    (h' : turns b st p bs = some p') :
    Grown Row.Becomes p.shared.table.rows p'.shared.table.rows ∧
    Successive Row.Over Row.Clash p'.shared.table.rows ∧
    ∀ r ∈ p'.shared.table.rows, r.AccountedBy (as ++ bs) := by
  have hp : Trail ([] ++ as) p := run_history backend (Op.prog b st) Env.apply (I := Trail)
    (fun as p a p' ht ha => (trail_act ht ha).1) (trail_idle t faults) h
  have hp' : Trail (as ++ bs) p' ∧
      Grown Row.Becomes p.shared.table.rows p'.shared.table.rows := by
    refine run_history backend (Op.prog b st) Env.apply
      (I := fun cs q => Trail cs q ∧ Grown Row.Becomes p.shared.table.rows q.shared.table.rows)
      (fun cs q a q' ht ha => ?_) ⟨hp, Grown.refl Row.Becomes.refl _⟩ h'
    obtain ⟨ht', hg⟩ := trail_act ht.1 ha
    exact ⟨ht', ht.2.trans (fun _ _ _ => Row.Becomes.trans) hg⟩
  exact ⟨hp'.2, hp'.1.successive, hp'.1.accounted⟩

end

/-- a call of worker `w`, alone for `n` commands -/
def worked (w : Nat) (o : Op) (n : Nat) : List Turn :=
  .call w o :: List.replicate n (.step w) ++ [.ret w]

/-- a ban that is lifted and imposed again, the cache being down at first: two rows -/
theorem table_ledger_twice : ∃ p p' : Workers,
    p.shared.table.rows.length = 1 ∧ p'.shared.table.rows.length = 2 ∧
    Grown Row.Becomes p.shared.table.rows p'.shared.table.rows ∧
    Successive Row.Over Row.Clash p'.shared.table.rows ∧
    ∀ r ∈ p'.shared.table.rows, r.AccountedBy (worked 0 (.block .sample {} none) 5 ++
      (worked 1 (.unblock .sample (str "appeal") (str "root")) 4 ++
        worked 0 (.block .sample {} none) 5)) := by
  have hrun : ((turns .sample .sample (Pool.idle { World.empty 0 with faults := [none, some .down] })
      (worked 0 (.block .sample {} none) 5)).any fun p =>
        decide (p.shared.table.rows.length = 1) && (turns .sample .sample p
          (worked 1 (.unblock .sample (str "appeal") (str "root")) 4 ++
            worked 0 (.block .sample {} none) 5)).any fun p' =>
          decide (p'.shared.table.rows.length = 2)) = true := by
    decide +kernel
  obtain ⟨p, hp, hrest⟩ := (Option.any_eq_true _ _).mp hrun
  obtain ⟨hone, hrest⟩ := Bool.and_eq_true_iff.mp hrest
  obtain ⟨p', hp', htwo⟩ := (Option.any_eq_true _ _).mp hrest
  exact ⟨p, p', of_decide_eq_true hone, of_decide_eq_true htwo, table_ledger hp hp'⟩

end SecAudit
