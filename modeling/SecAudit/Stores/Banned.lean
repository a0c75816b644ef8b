import SecAudit.Stores.Trace

/-!
# A ban that is in force

* `Facts.banning`   a scope has an active row, and every sentinel that is live sends a reader of it
                    to Postgres;
* `InForce`         the world agrees with that;
* `InForce.step`    the commands of all operations keep it, but for a revocation of the scope and for
                    a sentinel made of rows that were read before the ban;
* `InForce.read`    a read of the scope that runs alone finds an entry, or raises.
-/

set_option linter.unusedVariables false
set_option linter.unusedSectionVars false

namespace SecAudit
open Py Prog

/-- the limits a call must stay within: the store has a TTL and a prefix UTF-8 can carry, and no
limit of `datetime` or of JSON is near -/
structure Within (st : TieredBlockStore) (w : World) : Prop extends Room st w where
  ttl : 0 < st.permanentCacheTtl
  keyPrefix : encodable st.redis.keyPrefix = true

instance (st : TieredBlockStore) (w : World) : Decidable (Within st w) :=
  decidable_of_iff (Room st w ∧ 0 < st.permanentCacheTtl ∧ encodable st.redis.keyPrefix = true)
    ⟨fun ⟨hr, ht, hk⟩ => ⟨hr, ht, hk⟩, fun ⟨hr, ht, hk⟩ => ⟨hr, ht, hk⟩⟩

/-- the limits of a read of `scopes` -/
def WithinFor (st : TieredBlockStore) (w : World) (scopes : List BlockScope) : Prop :=
  Within st w ∧ ∀ s ∈ scopes, s.encodable = true

theorem prefix_of_limits {st : TieredBlockStore} {lim : Prop}
    (hlim : lim → encodable st.redis.keyPrefix = true ∧ 0 < st.permanentCacheTtl) (h : lim) :
    encodable st.redis.keyPrefix = true :=
  (hlim h).1

theorem ttl_of_limits {st : TieredBlockStore} {lim : Prop}
    (hlim : lim → encodable st.redis.keyPrefix = true ∧ 0 < st.permanentCacheTtl) (h : lim) :
    0 < st.permanentCacheTtl :=
  (hlim h).2

section
variable (st : TieredBlockStore) {s : BlockScope} (hs : s.encodable = true)

/-- `s` is banned; `lim` and `up` say whether limits are met and backends fail -/
def Facts.banning (lim up : Prop)
    (hlim : lim → encodable st.redis.keyPrefix = true ∧ 0 < st.permanentCacheTtl) : Facts st where
  banned s' := s' = s
  mayRow s' := s'.encodable = true
  cached _ := False
  mayHit _ := True
  stays k := k = st.redis.key s
  within := lim
  up := up
  banned_mayRow _ h := by
    rw [h]
    exact hs
  banned_stays _ h := by
    rw [h]
  mayRow_encodable _ h := h
  mayHit_of_row _ _ := trivial
  within_prefix := prefix_of_limits hlim
  within_ttl := ttl_of_limits hlim

/-- the ban of `s` is in force -/
def InForce (b : Builtins) (w : World) : Prop :=
  Agrees b (Facts.banning st hs False False nofun) w

end

/-- the scope whose row a command revokes -/
def Cmd.revokes : {β : Type} → Cmd β → Option BlockScope
  | _, .revoke s _ _ _ => some s
  | _, _ => none

/-- the key a command deletes -/
def Cmd.deletes : {β : Type} → Cmd β → Option Str
  | _, .delete k => some k
  | _, _ => none

section
variable {b : Builtins} {st : TieredBlockStore} {s : BlockScope} {hs : s.encodable = true}
  {w : World}

/-- the agreement does not depend on what may fail -/
theorem InForce.agrees (h : InForce st hs b w) (lim up : Prop)
    (hlim : lim → encodable st.redis.keyPrefix = true ∧ 0 < st.permanentCacheTtl) :
    Agrees b (Facts.banning st hs lim up hlim) w :=
  ⟨h.permanent, h.banned, h.rows, h.hits, h.warm⟩

theorem InForce.base (h : InForce st hs b w) : Agrees b (.base st) w where
  permanent := h.permanent
  banned := nofun
  rows := h.rows
  hits := h.hits
  warm t text ht hg := (h.warm t text ht hg).mono b nofun

/-- the row is there, and so is no sentinel that omits it -/
theorem InForce.of_base {hs : s.encodable = true} (h : Agrees b (.base st) w)
    (hrow : s ∈ scopesOf w.table.rows)
    (hwarm : ∀ text, w.read st.redis.warmKey = some text → CoversText b (· = s) text) :
    InForce st hs b w where
  permanent := h.permanent
  banned s' hs' := by
    rw [show s' = s from hs']
    exact hrow
  rows := h.rows
  hits := h.hits
  warm t text ht hg := hwarm text (ExpMap.get_later hg ht)

theorem InForce.env (h : InForce st hs b w) (x : Env) : InForce st hs b (x.apply w) :=
  Agrees.env h x

/-- the rows listed contain the scope -/
def ListsScope (st : TieredBlockStore) (s : BlockScope) (l : CallLog) : Prop :=
  ∀ rows, listed st.redis.warmKey l = some rows → ∃ row ∈ rows, row.scope = s

instance (st : TieredBlockStore) (s : BlockScope) (l : CallLog) : Decidable (ListsScope st s l) :=
  match hl : listed st.redis.warmKey l with
  | none => isTrue fun rows hrows => by
    rw [hl] at hrows
    cases hrows
  | some rows => decidable_of_iff (∃ row ∈ rows, row.scope = s) ⟨fun h rows' hrows => by
      rw [hl] at hrows
      exact Option.some.inj hrows ▸ h, fun h => h rows hl⟩

theorem base_keeps {o : Op} {l : CallLog} {β : Type} {c : Cmd β} (hi : o.Issue b st l c) :
    Keeps b (.base st) c := by
  cases c with
  | set k v ex =>
    rcases hi with ⟨rfl, rows, hl, hc⟩ | ⟨s', rfl, hd, -⟩
    · exact .inl ⟨rfl, hc.mono b nofun⟩
    · exact .inr ⟨s', rfl, fun _ => trivial, hd⟩
  | updateOrCreate s' a e t => exact ⟨hi.1, fun h => h⟩
  | revoke s' reason revokedBy t => exact id
  | now => trivial
  | get k => trivial
  | mget ks => trivial
  | delete k => trivial
  | scan pre => trivial
  | activeRow s' t => trivial
  | activeRows ss t => trivial
  | allActive t => trivial

/-- **a command of any operation keeps the ban in force**, unless it revokes it or writes a
sentinel from rows without it -/
theorem InForce.keeps {o : Op} {l : CallLog} {β : Type} {c : Cmd β} (hi : o.Issue b st l c)
    (hr : c.revokes ≠ some s) (hw : c.setKey = some st.redis.warmKey → ListsScope st s l)
    (lim up : Prop) (hlim : lim → encodable st.redis.keyPrefix = true ∧ 0 < st.permanentCacheTtl) :
    Keeps b (Facts.banning st hs lim up hlim) c := by
  cases c with
  | set k v ex =>
    rcases hi with ⟨rfl, rows, hl, hc⟩ | ⟨s', rfl, hd, -⟩
    · refine .inl ⟨rfl, hc.mono b ?_⟩
      intro s' h
      rw [show s' = s from h]
      exact ⟨hs, hw rfl rows hl⟩
    · exact .inr ⟨s', rfl, fun _ => trivial, hd⟩
  | updateOrCreate s' a e t => exact ⟨hi.1, fun h => h⟩
  | revoke s' reason revokedBy t => exact fun e => hr (congrArg some e)
  | now => trivial
  | get k => trivial
  | mget ks => trivial
  | delete k => trivial
  | scan pre => trivial
  | activeRow s' t => trivial
  | activeRows ss t => trivial
  | allActive t => trivial

theorem InForce.step (h : InForce st hs b w) {o : Op} {l : CallLog} {β : Type} {c : Cmd β}
    (hi : o.Issue b st l c) (hr : c.revokes ≠ some s)
    (hw : c.setKey = some st.redis.warmKey → ListsScope st s l) :
    InForce st hs b (backend β c w).2 :=
  Agrees.step h (InForce.keeps hi hr hw False False nofun)

/-- while the ban is in force every listing of the rows contains it -/
theorem InForce.lists (h : InForce st hs b w) {l : CallLog} (hl : ListsScope st s l) {β : Type}
    (c : Cmd β) : ListsScope st s (⟨c, (backend β c w).1⟩ :: l) := by
  intro rows hrows
  cases c with
  | allActive t =>
    rcases hx : (backend _ (.allActive t) w).1 with x | rows'
    · rw [hx] at hrows
      exact hl rows hrows
    · rw [hx] at hrows
      obtain rfl : rows' = rows := Option.some.inj hrows
      obtain rfl := Except.ok.inj (send_ok hx)
      exact Agrees.shown h rfl
  | set k v ex =>
    replace hrows : (if k = st.redis.warmKey then none else listed st.redis.warmKey l) = some rows :=
      hrows
    split at hrows
    · cases hrows
    · exact hl rows hrows
  | now => exact hl rows hrows
  | get k => exact hl rows hrows
  | mget ks => exact hl rows hrows
  | delete k => exact hl rows hrows
  | scan pre => exact hl rows hrows
  | updateOrCreate s' a e t => exact hl rows hrows
  | revoke s' reason revokedBy t => exact hl rows hrows
  | activeRow s' t => exact hl rows hrows
  | activeRows ss t => exact hl rows hrows

theorem lists_nil : ListsScope st s [] := nofun

/-- the backend replies to any operation as its contract relies on -/
theorem base_reply (h : Agrees b (.base st) w) {quiet : Prop} (hq : quiet → w.fault = none)
    {l : CallLog} {β : Type} {c : Cmd β} :
    (∀ x, (backend β c w).1 = .error x → ReplyErr c x ∧ (quiet → Unsent c x)) ∧
      Reply b (.base st) l c (backend β c w).1 := by
  constructor
  · intro x hx
    obtain ⟨he, hn, ht⟩ := backend_error hx
    exact ⟨he, fun q => ⟨fun hs => (hn hs).2 (hq q), ht⟩⟩
  · refine (h.reply nofun nofun nofun fun s _ => ?_).2
    rintro (hc | ⟨hc, -⟩)
    · exact hc.elim
    · exact hc.elim

/-! ## calls that run alone -/

/-- a backend that is up stays up -/
theorem backend_quiet (h : w.faults = []) {β : Type} (c : Cmd β) :
    (backend β c w).2.faults = [] := by
  have hsent : w.sent.faults = [] := by
    show w.faults.tail = []
    rw [h]
    rfl
  have sent : ∀ {texts : List Str} {exc : Fault → Exc} {run : World → Except Exc β × World},
      (run w.sent).2.faults = w.sent.faults → (w.send texts exc run).2.faults = [] := by
    intro texts exc run hr
    rcases @send_world _ w texts exc run with e | e | ⟨-, -, e⟩
    · rw [e]
      exact h
    · rw [e]
      exact hsent
    · rw [e, hr]
      exact hsent
  cases c with
  | now => exact h
  | get k => exact sent rfl
  | mget ks => exact sent rfl
  | delete k => exact sent rfl
  | scan pre => exact sent rfl
  | revoke s reason revokedBy t => exact sent rfl
  | activeRow s t => exact sent rfl
  | activeRows ss t => exact sent rfl
  | allActive t => exact sent rfl
  | set k v ex =>
    refine sent ?_
    show (if 0 < ex then _ else _ : Except Exc Unit × World).2.faults = _
    split <;> rfl
  | updateOrCreate s a e t =>
    show (if a.writable = true then _ else _ : Except Exc Row × World).2.faults = []
    split
    · exact sent rfl
    · exact h

/-- any operation, run alone, leaves a world the base facts agree with -/
theorem base_alone (hpg : st.pg = true) (h : Agrees b (.base st) w) (o : Op) :
    Agrees b (.base st) (exec backend (o.prog b st) w).2 := by
  have hstep : ∀ (l : CallLog) (w : World) {β : Type} (c : Cmd β), Agrees b (.base st) w →
      (o.contract b st False).issue l c →
      (o.contract b st False).reply l c (backend _ c w).1 ∧ Agrees b (.base st) (backend _ c w).2 :=
    fun l w β c h hi => ⟨base_reply h nofun, h.step (base_keeps hi)⟩
  obtain ⟨l, hI, -⟩ := exec_meets (I := fun _ w => Agrees b (.base st) w) hstep
    (trace_op hpg o) h
  exact hI

/-- any other operation, run alone, keeps the ban in force -/
theorem InForce.alone (hpg : st.pg = true) (h : InForce st hs b w) {o : Op}
    (ho : ∀ reason revokedBy, o ≠ .unblock s reason revokedBy) :
    InForce st hs b (exec backend (o.prog b st) w).2 := by
  have hstep : ∀ (l : CallLog) (w : World) {β : Type} (c : Cmd β),
      InForce st hs b w ∧ ListsScope st s l → (o.contract b st False).issue l c →
      (o.contract b st False).reply l c (backend _ c w).1 ∧
        InForce st hs b (backend _ c w).2 ∧ ListsScope st s (⟨c, (backend _ c w).1⟩ :: l) := by
    intro l w β c ⟨h, hl⟩ hi
    have hr : c.revokes ≠ some s := by
      intro hr
      cases c with
      | revoke s' reason revokedBy t =>
        obtain rfl := Option.some.inj hr
        obtain ⟨⟨reason, revokedBy, e⟩, -⟩ := hi
        exact ho reason revokedBy e
      | _ => cases hr
    exact ⟨base_reply h.base nofun, h.step hi hr fun _ => hl, h.lists hl c⟩
  obtain ⟨l, hI, -⟩ := exec_meets (I := fun l w => InForce st hs b w ∧ ListsScope st s l) hstep
    (trace_op hpg o) ⟨h, lists_nil⟩
  exact hI.1

/-- **a read of the scope, run alone while the ban is in force**, finds an entry or raises -/
theorem InForce.read (h : InForce st hs b w) {scopes : List BlockScope} (hm : s ∈ scopes)
    {q : Call (Option BlockEntry)}
    (hq : ∀ F : Facts st, (F.within → ∀ s ∈ scopes, s.encodable = true) →
      Meets (reads b F (Answers F scopes)) [] q) :
    (∃ e, (exec backend q w).1 = .ok (some e)) ∨ ∃ x, (exec backend q w).1 = .error x ∧
      (WithinFor st w scopes → x.isBlockStoreError = true ∧ w.faults ≠ []) := by
  have hlim : WithinFor st w scopes →
      encodable st.redis.keyPrefix = true ∧ 0 < st.permanentCacheTtl :=
    fun hw => ⟨hw.1.keyPrefix, hw.1.ttl⟩
  let F := Facts.banning st hs (WithinFor st w scopes) (w.faults = []) hlim
  have hstep : ∀ (l : CallLog) (w' : World) {β : Type} (c : Cmd β),
      InForce st hs b w' ∧ Still w w' ∧ Kept st l w' ∧ (w.faults = [] → w'.faults = []) →
      (reads b F (Answers F scopes)).issue l c →
      (reads b F (Answers F scopes)).reply l c (backend _ c w').1 ∧
        InForce st hs b (backend _ c w').2 ∧ Still w (backend _ c w').2 ∧
        Kept st (⟨c, (backend _ c w').1⟩ :: l) (backend _ c w').2 ∧
        (w.faults = [] → (backend _ c w').2.faults = []) := by
    rintro l w' β c ⟨h, hst, hk, hf⟩ ⟨hsend, hi⟩
    have hst' := still_step (w := w') hi
    refine ⟨?_, ?_, ⟨hst'.1.trans hst.1, hst'.2.trans hst.2⟩, kept_step hk hi,
      fun hq => backend_quiet (hf hq) c⟩
    · refine (h.agrees _ _ hlim).reply (fun hw => ⟨?_, ?_⟩) (fun hu => ?_) hsend
        fun s' _ => hk.hit (F := F) id
      · rw [hst.1]
        exact hw.1.clock
      · rw [hst.2]
        exact hw.1.rows
      · unfold World.fault
        rw [hf hu]
        rfl
    · have := Agrees.step (h.agrees _ _ hlim) (Keeps.of_read hi)
      exact ⟨this.permanent, this.banned, this.rows, this.hits, this.warm⟩
  obtain ⟨l, -, ha⟩ := exec_meets (I := fun l w' => InForce st hs b w' ∧ Still w w' ∧ Kept st l w' ∧
    (w.faults = [] → w'.faults = [])) hstep (hq F fun hw => hw.2) ⟨h, ⟨rfl, rfl⟩, kept_nil w, id⟩
  rcases hx : (exec backend q w).1 with x | o
  · refine .inr ⟨x, rfl, fun hw => ?_⟩
    rw [hx] at ha
    rcases ha.raises x rfl with ⟨hb, hn⟩ | ⟨-, hn⟩
    · exact ⟨hb, fun hf => hn ⟨hw, hf⟩⟩
    · exact absurd hw hn
  · rw [hx] at ha
    cases o with
    | some e => exact .inl ⟨e, rfl⟩
    | none => exact absurd rfl (ha.complete rfl s hm).1

end

end SecAudit
