import SecAudit.Stores.Agree

/-!
# What every operation writes, whatever else happens

A contract that all four operations keep to, in any interleaving, told by the log of the call:

* `Op.Issue`        a sentinel only from the rows the call listed last; a block key only of a row the
                    call was shown, or of the scope it blocks; a row only by `block(ttl=None)`,
                    before the sentinel is dropped; a revocation only after the key is dropped;
* `Op.Finished`     a permanent block that returns has committed its row and dropped the sentinel,
                    an unblock that returns has dropped the key and revoked the row;
* `trace_op`        every operation keeps to it.
-/

set_option linter.unusedVariables false
set_option linter.unusedSectionVars false

namespace SecAudit
open Py Prog

/-- the call has committed a row of `s` -/
def Committed (s : BlockScope) (l : CallLog) : Prop :=
  ∃ a t row, (⟨Cmd.updateOrCreate s a none t, .ok row⟩ : Event Cmd Exc) ∈ l

/-- the call has dropped the key -/
def Dropped (k : Str) (l : CallLog) : Prop :=
  ∃ n, (⟨Cmd.delete k, .ok n⟩ : Event Cmd Exc) ∈ l

/-- the call has revoked the row of `s` -/
def Revoked (s : BlockScope) (l : CallLog) : Prop :=
  ∃ reason revokedBy t n, (⟨Cmd.revoke s reason revokedBy t, .ok n⟩ : Event Cmd Exc) ∈ l

/-- a reply that commits a row of `s` -/
def isCommit (s : BlockScope) : Event Cmd Exc → Bool
  | ⟨.updateOrCreate s' _ none _, .ok _⟩ => decide (s' = s)
  | _ => false

def isDrop (k : Str) : Event Cmd Exc → Bool
  | ⟨.delete k', .ok _⟩ => decide (k' = k)
  | _ => false

def isRevoke (s : BlockScope) : Event Cmd Exc → Bool
  | ⟨.revoke s' _ _ _, .ok _⟩ => decide (s' = s)
  | _ => false

instance (s : BlockScope) (l : CallLog) : Decidable (Committed s l) :=
  decidable_of_iff (l.any (isCommit s) = true) <| by
    rw [List.any_eq_true]
    constructor
    · rintro ⟨e, hm, he⟩
      unfold isCommit at he
      split at he
      · obtain rfl := of_decide_eq_true he
        exact ⟨_, _, _, hm⟩
      · cases he
    · rintro ⟨a, t, row, hm⟩
      exact ⟨_, hm, decide_eq_true rfl⟩

instance (k : Str) (l : CallLog) : Decidable (Dropped k l) :=
  decidable_of_iff (l.any (isDrop k) = true) <| by
    rw [List.any_eq_true]
    constructor
    · rintro ⟨e, hm, he⟩
      unfold isDrop at he
      split at he
      · obtain rfl := of_decide_eq_true he
        exact ⟨_, hm⟩
      · cases he
    · rintro ⟨n, hm⟩
      exact ⟨_, hm, decide_eq_true rfl⟩

instance (s : BlockScope) (l : CallLog) : Decidable (Revoked s l) :=
  decidable_of_iff (l.any (isRevoke s) = true) <| by
    rw [List.any_eq_true]
    constructor
    · rintro ⟨e, hm, he⟩
      unfold isRevoke at he
      split at he
      · obtain rfl := of_decide_eq_true he
        exact ⟨_, _, _, _, hm⟩
      · cases he
    · rintro ⟨reason, revokedBy, t, n, hm⟩
      exact ⟨_, hm, decide_eq_true rfl⟩

theorem Committed.mono {s : BlockScope} {l l' : CallLog} (h : Committed s l) (hl : l <:+ l') :
    Committed s l' := by
  obtain ⟨a, t, row, hm⟩ := h
  exact ⟨a, t, row, hl.subset hm⟩

theorem Dropped.mono {k : Str} {l l' : CallLog} (h : Dropped k l) (hl : l <:+ l') :
    Dropped k l' := by
  obtain ⟨n, hm⟩ := h
  exact ⟨n, hl.subset hm⟩

theorem Revoked.mono {s : BlockScope} {l l' : CallLog} (h : Revoked s l) (hl : l <:+ l') :
    Revoked s l' := by
  obtain ⟨reason, revokedBy, t, n, hm⟩ := h
  exact ⟨reason, revokedBy, t, n, hl.subset hm⟩

/-- what is known of every store at every time -/
def Facts.base (st : TieredBlockStore) : Facts st where
  banned _ := False
  mayRow s := s.encodable = true
  cached _ := False
  mayHit _ := True
  stays _ := False
  within := False
  up := False
  banned_mayRow _ h := h.elim
  banned_stays _ h := h.elim
  mayRow_encodable _ h := h
  mayHit_of_row _ _ := trivial
  within_prefix h := h.elim
  within_ttl h := h.elim

section
variable (b : Builtins) (st : TieredBlockStore) (o : Op)

def Op.Issue (l : CallLog) : {β : Type} → Cmd β → Prop
  | _, .set k v _ => (k = st.redis.warmKey ∧
      ∃ rows, listed st.redis.warmKey l = some rows ∧ CoversRows b rows v) ∨
    ∃ s, k = st.redis.key s ∧ Decodes b s v ∧ (Shown st.redis k l ∨ ∃ a ttl, o = .block s a ttl)
  | _, .updateOrCreate s _ e _ => e = none ∧ (∃ a, o = .block s a none) ∧
    ¬ Dropped st.redis.warmKey l
  | _, .revoke s _ _ _ => (∃ reason revokedBy, o = .unblock s reason revokedBy) ∧
    Dropped (st.redis.key s) l
  | _, _ => True

/-- with backends that are up, a call that returns has made its writes -/
def Op.Finished (l : CallLog) : Prop :=
  match o with
  | .block s _ none => Committed s l ∧ Dropped st.redis.warmKey l
  | .unblock s _ _ => Dropped (st.redis.key s) l ∧ Revoked s l
  | _ => True

/-- a failure of a command that could not be sent -/
def Unsent {β : Type} (c : Cmd β) (x : Exc) : Prop :=
  ¬ c.Sendable ∧ (isRedisError x = true → c.texts.all encodable = true)

def trace {α : Type} (quiet : Prop) (Q : CallLog → Except Exc α → Prop) : Contract Cmd Exc α :=
  ⟨fun l _ c r => (∀ x, r = .error x → ReplyErr c x ∧ (quiet → Unsent c x)) ∧
      Reply b (.base st) l c r,
    fun l _ c => o.Issue b st l c, Q⟩

end

section
variable {b : Builtins} {st : TieredBlockStore} {o : Op} {quiet : Prop} {l : CallLog}

/-- a read does no more than any operation may -/
theorem trace_of_reads {α : Type} {P Q : CallLog → Except Exc α → Prop} {p : Call α}
    (h : Meets (reads b (.base st) P) l p) (hQ : ∀ l r, P l r → Q l r) :
    Meets (trace b st o quiet Q) l p := by
  refine Meets.mono h ?_ ?_ hQ
  · intro l β c r hr
    exact ⟨fun x hx => ⟨(hr.1 x hx).1, fun _ => id, fun hw => hw.1⟩, hr.2⟩
  · intro l β c hc
    replace hc := hc.2
    cases c with
    | set k v ex =>
      rcases hc with ⟨-, ⟨hk, rows, hl, hcov, -⟩ | ⟨s, hk, -, hd, hs⟩⟩
      · exact .inl ⟨hk, rows, hl, hcov⟩
      · exact .inr ⟨s, hk, hd, .inl hs⟩
    | updateOrCreate s a e t => exact hc.elim
    | revoke s reason revokedBy t => exact hc.elim
    | now => trivial
    | get k => trivial
    | mget ks => trivial
    | delete k => trivial
    | scan pre => trivial
    | activeRow s t => trivial
    | activeRows ss t => trivial
    | allActive t => trivial

theorem trace_wrap {α : Type} {Q : CallLog → Except Exc α → Prop} {c : Cmd α}
    {picked : Exc → Bool} {text : Str} (hi : o.Issue b st l c)
    (hok : ∀ a, Reply b (.base st) l c (.ok a) → Q (⟨c, .ok a⟩ :: l) (.ok a))
    (herr : ∀ x, ReplyErr c x → (quiet → Unsent c x) →
      Q (⟨c, .error x⟩ :: l) (.error (if picked x then .blockStoreError text else x))) :
    Meets (trace b st o quiet Q) l (Call.wrap picked text (perform c)) := by
  refine ⟨hi, ?_⟩
  rintro r ⟨hx, hr⟩
  cases r with
  | ok a => exact hok a hr
  | error x =>
    have := herr x (hx x rfl).1 (hx x rfl).2
    show Meets _ _ (if picked x = true then Prog.throw _ else Prog.throw _)
    by_cases hp : picked x = true
    · rw [if_pos hp] at this ⊢
      exact this
    · rw [if_neg hp] at this ⊢
      exact this

theorem trace_now {Q : CallLog → Except Exc Int → Prop}
    (h : ∀ r, Q (⟨Cmd.now, r⟩ :: l) r) : Meets (trace b st o quiet Q) l (perform .now) :=
  ⟨trivial, fun r _ => h r⟩

/-- the log has grown, and a result that is there is as `P` says -/
def Gives {α : Type} (l : CallLog) (P : CallLog → α → Prop) (l' : CallLog) (r : Except Exc α) :
    Prop := l <:+ l' ∧ ∀ a, r = .ok a → P l' a

/-- wrapping an exception changes no result that is there -/
theorem trace_catch {α : Type} {P : CallLog → α → Prop} {p : Call α} {picked : Exc → Bool}
    {text : Str} {l₀ : CallLog} (h : Meets (trace b st o quiet (Gives l₀ P)) l p) :
    Meets (trace b st o quiet (Gives l₀ P)) l (Call.wrap picked text p) := by
  refine meets_catchWith h (fun l' a _ ha => ha) fun l' e _ he => ?_
  show Meets _ _ (if picked e = true then Prog.throw _ else Prog.throw _)
  split <;> exact ⟨he.1, nofun⟩

/-- `RedisBlockStore.block` of the scope of the operation -/
theorem trace_redis_block {s : BlockScope} {a a' : BlockArgs} {ttl ttl' : Option Int}
    (ho : o = .block s a' ttl') :
    Meets (trace b st o quiet (Gives l fun _ _ => True)) l (st.redis.block b s a ttl) := by
  unfold RedisBlockStore.block
  refine meets_bind (P := Gives l fun _ _ => True)
    (trace_now fun r => ⟨List.suffix_cons _ _, fun _ _ => trivial⟩) ?_
    fun l' e _ h => ⟨h.1, nofun⟩
  intro l1 now _ h1
  refine meets_bind (P := Gives l fun _ _ => True) (p := ofExcept _) ⟨h1.1, fun _ _ => trivial⟩ ?_
    fun l' e _ h => ⟨h.1, nofun⟩
  intro l2 expiresAt _ h2
  refine meets_bind (P := fun l' r => l <:+ l' ∧ r = entryToJson b _) (p := ofExcept _) ⟨h2.1, rfl⟩
    ?_ fun l' e _ h => ⟨h.1, nofun⟩
  rintro l3 payload _ ⟨hl3, hp⟩
  refine meets_bind (P := Gives l fun _ _ => True) (trace_wrap ?_ ?_ ?_) ?_
    fun l' e _ h => ⟨h.1, nofun⟩
  · have hd := decodes_payload hp.symm
    exact .inr ⟨s, rfl, hd, .inr ⟨a', ttl', ho⟩⟩
  · intro u _
    exact ⟨hl3.trans (List.suffix_cons _ _), fun _ _ => trivial⟩
  · intro x _ _
    exact ⟨hl3.trans (List.suffix_cons _ _), nofun⟩
  · intro l4 u _ h4
    exact ⟨h4.1, fun _ _ => trivial⟩

/-- a best-effort step: its `BlockStoreError` is passed over -/
theorem trace_bestEffort {P : CallLog → Prop} {p : Call Unit}
    (h : Meets (trace b st o quiet fun l' r => l <:+ l' ∧ (r = .ok () → P l') ∧
      ∀ e, r = .error e → e.isBlockStoreError = true → P l') l p) :
    Meets (trace b st o quiet (Gives l fun l' _ => P l')) l (TieredBlockStore.bestEffort p) := by
  refine meets_catchWith h (fun l' u _ hu => ⟨hu.1, fun _ _ => hu.2.1 rfl⟩) ?_
  intro l' e _ he
  show Meets _ _ (if e.isBlockStoreError = true then _ else _)
  split
  · rename_i hb
    exact ⟨he.1, fun _ _ => he.2.2 e rfl hb⟩
  · exact ⟨he.1, nofun⟩

theorem trace_cachePermanent {s : BlockScope} {entry : BlockEntry} {a : BlockArgs}
    {ttl : Option Int} (ho : o = .block s a ttl) (hs : entry.scope = s) :
    Meets (trace b st o quiet (Gives l fun _ _ => True)) l (st.cachePermanent b entry) := by
  subst hs
  refine trace_bestEffort (meets_bind (trace_redis_block ho) ?_ ?_)
  · intro l' e _ h
    exact ⟨h.1, fun _ => trivial, nofun⟩
  · intro l' e _ h
    exact ⟨h.1, nofun, fun _ _ _ => trivial⟩

/-- with Redis up, the sentinel has been dropped -/
theorem trace_invalidateWarm :
    Meets (trace b st o quiet (Gives l fun l' _ => quiet → Dropped st.redis.warmKey l')) l
      st.invalidateWarm := by
  refine trace_bestEffort (meets_bind (P := fun l' r => l <:+ l' ∧
    (∀ n, r = .ok n → Dropped st.redis.warmKey l') ∧
    ∀ e, r = .error e → e.isBlockStoreError = true → ¬ quiet) (trace_wrap trivial ?_ ?_) ?_ ?_)
  · intro n _
    exact ⟨List.suffix_cons _ _, fun _ _ => ⟨n, List.mem_cons_self⟩, nofun⟩
  · intro x hx hu
    refine ⟨List.suffix_cons _ _, nofun, fun e he hb hq => ?_⟩
    obtain ⟨hn, ht⟩ := hu hq
    by_cases hp : isRedisError x = true
    · exact hn ⟨ht hp, trivial⟩
    · rw [if_neg hp] at he
      cases he
      rcases hx with rfl | hx
      · cases hb
      · exact hp hx
  · intro l' n _ h
    exact ⟨h.1, fun _ _ => h.2.1 n rfl, nofun⟩
  · intro l' e _ h
    exact ⟨h.1, nofun, fun _ he hb hq => absurd hq (by cases he; exact h.2.2 e rfl hb)⟩

/-- `PostgresBlockStore.block` -/
theorem trace_pg_block {s : BlockScope} {a a' : BlockArgs} (ho : o = .block s a' none)
    (hl : ¬ Dropped st.redis.warmKey l) :
    Meets (trace b st o quiet (Gives l fun l' e => e.scope = s ∧ Committed s l')) l
      (Postgres.block s a none) := by
  unfold Postgres.block Postgres.expiry Postgres.wrap
  refine meets_bind (P := fun l' r => l' = l ∧ r = .ok none) (p := pure none) ⟨rfl, rfl⟩ ?_
    fun l' e hl h => ⟨hl, nofun⟩
  rintro l1 expiresAt _ ⟨rfl, he⟩
  obtain rfl := Except.ok.inj he
  refine meets_bind (P := fun l' r => l' = ⟨Cmd.now, r⟩ :: l1) (trace_now fun r => rfl) ?_
    fun l' e hl h => ⟨hl, nofun⟩
  rintro l2 now hl2 rfl
  refine meets_bind (P := Gives l1 fun l' row => row.scope = s ∧ Committed s l')
    (trace_catch (trace_wrap ?_ ?_ ?_)) ?_ fun l' e _ h => ⟨h.1, nofun⟩
  · refine ⟨rfl, ⟨a', ho⟩, ?_⟩
    rintro ⟨n, hm⟩
    rcases List.mem_cons.mp hm with he | hm
    · cases he
    · exact hl ⟨n, hm⟩
  · intro row hrow
    refine ⟨hl2.trans (List.suffix_cons _ _), fun row' e => ?_⟩
    cases e
    exact ⟨hrow row rfl, a, now, row, List.mem_cons_self⟩
  · intro x _ _
    exact ⟨hl2.trans (List.suffix_cons _ _), nofun⟩
  · intro l3 row _ h3
    refine ⟨h3.1, fun e he => ?_⟩
    cases he
    exact h3.2 row rfl

variable (hpg : st.pg = true)
include hpg

theorem trace_block {s : BlockScope} {a : BlockArgs} {ttl : Option Int} :
    Meets (trace b st (.block s a ttl) quiet (Gives [] fun l' _ =>
      quiet → (Op.block s a ttl).Finished st l')) [] (st.block b s a ttl) := by
  cases ttl with
  | some n =>
    have h : Meets (trace b st (.block s a (some n)) quiet (Gives [] fun _ _ => True)) []
        (st.redis.block b s a (some n)) := trace_redis_block rfl
    refine Meets.mono h (fun l β c r hr => hr) (fun l β c hc => hc) ?_
    intro l' r h
    exact ⟨h.1, fun _ _ _ => trivial⟩
  | none =>
    unfold TieredBlockStore.block
    simp only [hpg, if_true]
    have hempty : ¬ Dropped st.redis.warmKey [] := by
      rintro ⟨n, hm⟩
      exact absurd hm List.not_mem_nil
    refine meets_bind (trace_pg_block rfl hempty) ?_ fun l' e _ h => ⟨h.1, nofun⟩
    intro l1 entry h1 he
    obtain ⟨hs, hc⟩ := he.2 entry rfl
    refine meets_bind (trace_cachePermanent rfl hs) ?_ fun l' e hl h => ⟨h1.trans hl, nofun⟩
    intro l2 u h2 _
    refine meets_bind trace_invalidateWarm ?_ fun l' e hl h => ⟨(h1.trans h2).trans hl, nofun⟩
    intro l3 u' h3 hd
    exact ⟨(h1.trans h2).trans h3, fun _ _ hq => ⟨hc.mono (h2.trans h3), hd.2 () rfl hq⟩⟩

theorem trace_unblock {s : BlockScope} {reason revokedBy : Str} :
    Meets (trace b st (.unblock s reason revokedBy) quiet (Gives [] fun l' _ =>
      quiet → (Op.unblock s reason revokedBy).Finished st l')) [] (st.unblock s reason revokedBy) := by
  unfold TieredBlockStore.unblock
  refine meets_bind (P := Gives [] fun l' _ => Dropped (st.redis.key s) l') (trace_wrap trivial ?_ ?_)
    ?_ fun l' e _ h => ⟨h.1, nofun⟩
  · intro n _
    exact ⟨List.nil_suffix, fun _ _ => ⟨n, List.mem_cons_self⟩⟩
  · intro x _ _
    exact ⟨List.nil_suffix, nofun⟩
  intro l1 count _ h1
  have hd := h1.2 count rfl
  simp only [hpg, if_true]
  refine meets_bind (P := Gives l1 fun l' _ => Revoked s l') ?_ ?_
    fun l' e _ h => ⟨List.nil_suffix, nofun⟩
  · unfold Postgres.unblock Postgres.wrap
    refine meets_bind (P := fun l' r => l1 <:+ l') (trace_now fun r => List.suffix_cons _ _) ?_
      fun l' e hl h => ⟨hl, nofun⟩
    intro l2 now h2 _
    refine trace_wrap ⟨⟨reason, revokedBy, rfl⟩, hd.mono h2⟩ ?_ ?_
    · intro n _
      exact ⟨h2.trans (List.suffix_cons _ _), fun _ _ =>
        ⟨reason, revokedBy, now, n, List.mem_cons_self⟩⟩
    · intro x _ _
      exact ⟨h2.trans (List.suffix_cons _ _), nofun⟩
  · intro l2 revoked h2 hr
    have hr := hr.2 revoked rfl
    refine meets_bind trace_invalidateWarm ?_ fun l' e hl h => ⟨List.nil_suffix, nofun⟩
    intro l3 u h3 _
    exact ⟨List.nil_suffix, fun _ _ _ => ⟨hd.mono (h2.trans h3), hr.mono h3⟩⟩

/-- the contract of a whole operation -/
def Op.contract (b : Builtins) (st : TieredBlockStore) (quiet : Prop) (o : Op) :
    Contract Cmd Exc Answer :=
  trace b st o quiet (Gives [] fun l _ => quiet → o.Finished st l)

/-- **every operation keeps to the contract** -/
theorem trace_op (o : Op) : Meets (o.contract b st quiet) [] (o.prog b st) := by
  cases o with
  | block s a ttl =>
    refine meets_bind (trace_block hpg) ?_ fun l' e _ h => ⟨h.1, nofun⟩
    intro l' e _ h
    exact ⟨h.1, fun _ _ => h.2 e rfl⟩
  | unblock s reason revokedBy =>
    refine meets_bind (trace_unblock hpg) ?_ fun l' e _ h => ⟨h.1, nofun⟩
    intro l' e _ h
    exact ⟨h.1, fun _ _ => h.2 e rfl⟩
  | getActive s =>
    have hr : Meets (reads b (.base st) (Answers (.base st) [s])) [] (st.getActive b s) :=
      reads_getActive hpg nofun
    refine meets_bind (trace_of_reads hr fun l r h => trivial) ?_ fun l' e _ h =>
      ⟨List.nil_suffix, nofun⟩
    intro l' e _ h
    exact ⟨List.nil_suffix, fun _ _ _ => trivial⟩
  | firstActive ss =>
    have hr : Meets (reads b (.base st) (Answers (.base st) ss)) [] (st.firstActive b ss) :=
      reads_firstActive hpg nofun
    refine meets_bind (trace_of_reads hr fun l r h => trivial) ?_ fun l' e _ h =>
      ⟨List.nil_suffix, nofun⟩
    intro l' e _ h
    exact ⟨List.nil_suffix, fun _ _ _ => trivial⟩

end

end SecAudit
