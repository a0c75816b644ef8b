import SecAudit.Stores.Ops

/-!
# A world that agrees with the facts

* `Room`            no limit of `datetime` or of JSON is near;
* `Agrees`          the table, the block keys and the sentinel bear the facts out, now and until the
                    keys expire;
* `Agrees.reply`    every command is answered as the contract of the reads relies on;
* `Keeps`           the commands after which the world still agrees (`Agrees.step`), as it does
                    after time has passed or keys have been dropped (`Agrees.env`).
-/

set_option linter.unusedVariables false
set_option linter.unusedSectionVars false

namespace SecAudit
open Py Prog

/-! ## how the backend fails a command -/

theorem send_error {β : Type} {w : World} {texts : List Str} {exc : Fault → Exc}
    {run : World → Except Exc β × World} {x : Exc} (h : (w.send texts exc run).1 = .error x) :
    (x = .unicodeError ∧ texts.all encodable ≠ true) ∨
    (∃ f, w.fault = some f ∧ texts.all encodable = true ∧ x = exc f) ∨
    ((run w.sent).1 = .error x ∧ texts.all encodable = true) := by
  unfold World.send at h
  by_cases he : texts.all encodable = true
  · rw [if_pos he] at h
    right
    cases hf : w.fault with
    | some f =>
      simp only [hf] at h
      exact .inl ⟨f, rfl, he, (Except.error.inj h).symm⟩
    | none =>
      simp only [hf] at h
      exact .inr ⟨h, he⟩
  · rw [if_neg he] at h
    exact .inl ⟨(Except.error.inj h).symm, he⟩

theorem send_ok {β : Type} {w : World} {texts : List Str} {exc : Fault → Exc}
    {run : World → Except Exc β × World} {a : β} (h : (w.send texts exc run).1 = .ok a) :
    (run w.sent).1 = .ok a := by
  unfold World.send at h
  by_cases he : texts.all encodable = true
  · rw [if_pos he] at h
    cases hf : w.fault with
    | some f =>
      simp only [hf] at h
      cases h
    | none =>
      simp only [hf] at h
      exact h
  · rw [if_neg he] at h
    cases h

/-- after a command the world is as before, or as the command leaves it -/
theorem send_world {β : Type} {w : World} {texts : List Str} {exc : Fault → Exc}
    {run : World → Except Exc β × World} :
    (w.send texts exc run).2 = w ∨ (w.send texts exc run).2 = w.sent ∨
    (texts.all encodable = true ∧ w.fault = none ∧ (w.send texts exc run).2 = (run w.sent).2) := by
  unfold World.send
  by_cases he : texts.all encodable = true
  · rw [if_pos he]
    right
    cases hf : w.fault with
    | some f => exact .inl rfl
    | none => exact .inr ⟨he, rfl, rfl⟩
  · rw [if_neg he]
    exact .inl rfl

theorem sendRedis_error {β : Type} {w : World} {texts : List Str} {f : World → β × World}
    {x : Exc} (h : (w.sendRedis texts fun w => (.ok (f w).1, (f w).2)).1 = .error x) :
    (x = .unicodeError ∨ isRedisError x = true) ∧
      (texts.all encodable = true → x ≠ .unicodeError ∧ w.fault ≠ none) ∧
      (isRedisError x = true → texts.all encodable = true) := by
  rcases send_error h with ⟨rfl, hn⟩ | ⟨y, hy, he, rfl⟩ | ⟨h, -⟩
  · exact ⟨.inl rfl, fun he => absurd he hn, nofun⟩
  · exact ⟨.inr rfl, fun _ => ⟨nofun, by rw [hy]; exact nofun⟩, fun _ => he⟩
  · cases h

theorem sendTable_error {β : Type} {w : World} {texts : List Str} {f : World → β × World}
    {x : Exc} (h : (w.sendTable texts fun w => (.ok (f w).1, (f w).2)).1 = .error x) :
    (x = .unicodeError ∨ x.isDatabaseError = true) ∧
      (texts.all encodable = true → x ≠ .unicodeError ∧ w.fault ≠ none) ∧
      (isRedisError x = true → texts.all encodable = true) := by
  rcases send_error h with ⟨rfl, hn⟩ | ⟨y, hy, he, rfl⟩ | ⟨h, -⟩
  · exact ⟨.inl rfl, fun he => absurd he hn, nofun⟩
  · refine ⟨.inr (by cases y <;> rfl), fun _ => ⟨?_, by rw [hy]; exact nofun⟩, fun _ => he⟩
    cases y <;> exact nofun
  · cases h

/-- **how a command fails**: as `ReplyErr` says, and only when it cannot be carried out -/
theorem backend_error {β : Type} {c : Cmd β} {w : World} {x : Exc}
    (h : (backend β c w).1 = .error x) :
    ReplyErr c x ∧ (c.Sendable → x ≠ .unicodeError ∧ w.fault ≠ none) ∧
      (isRedisError x = true → c.texts.all encodable = true) := by
  cases c with
  | now => cases h
  | get k =>
    obtain ⟨hx, hs⟩ := sendRedis_error (f := fun w => (w.read k, w)) h
    exact ⟨hx, fun h => hs.1 h.1, hs.2⟩
  | mget ks =>
    obtain ⟨hx, hs⟩ := sendRedis_error (f := fun w => (ks.map w.read, w)) h
    exact ⟨hx, fun h => hs.1 h.1, hs.2⟩
  | set k v ex =>
    rcases send_error h with ⟨rfl, hn⟩ | ⟨y, hy, he, rfl⟩ | ⟨h, he⟩
    · exact ⟨.inl rfl, fun hs => absurd hs.1 hn, nofun⟩
    · exact ⟨.inr rfl, fun _ => ⟨nofun, by rw [hy]; exact nofun⟩, fun _ => he⟩
    · by_cases hex : 0 < ex
      · rw [if_pos hex] at h
        cases h
      · rw [if_neg hex] at h
        cases h
        exact ⟨.inr rfl, fun hs => absurd hs.2 hex, fun _ => he⟩
  | delete k =>
    obtain ⟨hx, hs⟩ := sendRedis_error (f := fun w => (if (w.read k).isSome then 1 else 0,
      { w with redis := w.redis.drop k })) h
    exact ⟨hx, fun h => hs.1 h.1, hs.2⟩
  | scan pre =>
    obtain ⟨hx, hs⟩ := sendRedis_error
      (f := fun w => ((w.redis.liveKeys w.now).filter pre.isPrefixOf, w)) h
    exact ⟨hx, fun h => hs.1 h.1, hs.2⟩
  | updateOrCreate s a e t =>
    replace h : (if a.writable = true then w.sendTable (s.texts ++ a.texts) fun w =>
        (.ok (w.table.upsert s a e t).1, { w with table := (w.table.upsert s a e t).2 })
      else (.error .jsonError, w)).1 = .error x := h
    split at h
    · obtain ⟨hx, hs⟩ := sendTable_error (f := fun w => ((w.table.upsert s a e t).1,
        { w with table := (w.table.upsert s a e t).2 })) h
      exact ⟨hx.imp_right .inr, fun h => hs.1 h.1, hs.2⟩
    · rename_i ha
      cases h
      exact ⟨.inr (.inl rfl), fun h => absurd h.2 ha, nofun⟩
  | revoke s reason revokedBy t =>
    obtain ⟨hx, hs⟩ := sendTable_error (f := fun w => ((w.table.revoke s reason revokedBy t).1,
      { w with table := (w.table.revoke s reason revokedBy t).2 })) h
    exact ⟨hx, fun h => hs.1 h.1, hs.2⟩
  | activeRow s t =>
    obtain ⟨hx, hs⟩ := sendTable_error
      (f := fun w => ((w.table.active t).find? fun (r : Row) => decide (r.scope = s), w)) h
    exact ⟨hx, fun h => hs.1 h.1, hs.2⟩
  | activeRows ss t =>
    obtain ⟨hx, hs⟩ := sendTable_error
      (f := fun w => ((w.table.active t).filter fun (r : Row) => decide (r.scope ∈ ss), w)) h
    exact ⟨hx, fun h => hs.1 h.1, hs.2⟩
  | allActive t =>
    obtain ⟨hx, hs⟩ := sendTable_error (f := fun w => (w.table.active t, w)) h
    exact ⟨hx, fun h => hs.1 h.1, hs.2⟩

/-! ## agreement -/

/-- no limit of `datetime` or of JSON is near -/
structure Room (st : TieredBlockStore) (w : World) : Prop where
  clock : ∃ t, addSeconds w.now st.permanentCacheTtl = .ok t
  rows : Countable w.table.rows.length

instance (st : TieredBlockStore) (w : World) : Decidable (Room st w) :=
  decidable_of_iff ((addSeconds w.now st.permanentCacheTtl).isOk = true ∧
    Countable w.table.rows.length) ⟨fun ⟨hc, hr⟩ => ⟨by
      rcases hx : addSeconds w.now st.permanentCacheTtl with x | t
      · rw [hx] at hc
        cases hc
      · exact ⟨t, rfl⟩, hr⟩, fun ⟨⟨t, ht⟩, hr⟩ => ⟨by rw [ht]; rfl, hr⟩⟩

section
variable (b : Builtins) {st : TieredBlockStore}

structure Agrees (F : Facts st) (w : World) : Prop where
  permanent : w.table.Permanent
  banned : ∀ s, F.banned s → s ∈ scopesOf w.table.rows
  rows : ∀ row ∈ w.table.rows, row.unrevoked = true → RowOk F row
  hits : ∀ s t v, w.now ≤ t → w.redis.get t (st.redis.key s) = some v →
    F.mayHit (st.redis.key s) ∧ v ≠ [] ∧ ∃ e, entryFromJson b v = .ok e
  warm : ∀ t text, w.now ≤ t → w.redis.get t st.redis.warmKey = some text →
    CoversText b F.banned text

end

section
variable {b : Builtins} {st : TieredBlockStore} {F : Facts st} {w : World}

theorem nonEmpty_some {v : Str} (h : v ≠ []) : nonEmpty (some v) = some v := by
  unfold nonEmpty
  rw [Option.filter_some, if_pos]
  cases v with
  | nil => exact absurd rfl h
  | cons c v => rfl

theorem Agrees.sent (h : Agrees b F w) : Agrees b F w.sent :=
  ⟨h.permanent, h.banned, h.rows, h.hits, h.warm⟩

/-- the keys of blocks that the facts, or this call, want live are live -/
def Hit (st : TieredBlockStore) (F : Facts st) (l : CallLog) (w : World) (k : Str) : Prop :=
  F.cached k ∨ (F.stays k ∧ Wrote k l) → (nonEmpty (w.read k)).isSome = true

theorem Agrees.hitOk (h : Agrees b F w) {l : CallLog} {s : BlockScope}
    (hc : Hit st F l w (st.redis.key s)) :
    HitOk b F l (st.redis.key s) (w.read (st.redis.key s)) := by
  refine ⟨fun p hp => ?_, hc⟩
  cases hr : w.read (st.redis.key s) with
  | none =>
    rw [hr] at hp
    cases hp
  | some v =>
    obtain ⟨hm, hne, hd⟩ := h.hits s w.now v (Int.le_refl _) hr
    rw [hr, nonEmpty_some hne] at hp
    obtain rfl := Option.some.inj hp
    exact ⟨hm, hd⟩

theorem Agrees.active (h : Agrees b F w) {t : Int} {row : Row} (hr : row ∈ w.table.active t) :
    RowOk F row := by
  obtain ⟨hr, hu⟩ := (Table.mem_active h.permanent).mp hr
  exact h.rows row hr hu

theorem Agrees.shown (h : Agrees b F w) {t : Int} {s : BlockScope} (hs : F.banned s) :
    ∃ row ∈ w.table.active t, row.scope = s :=
  (Table.mem_scopesOf_active h.permanent).mp (h.banned s hs)

/-- the keys a command reads -/
def readKeys : {β : Type} → Cmd β → List Str
  | _, .get k => [k]
  | _, .mget ks => ks
  | _, _ => []

/-- **the backend answers as the reads rely on** -/
theorem Agrees.reply (h : Agrees b F w) (hroom : F.within → Room st w) (hup : F.up → w.fault = none)
    {l : CallLog} {β : Type} {c : Cmd β} (hs : F.within → c.Sendable)
    (hc : ∀ s, st.redis.key s ∈ readKeys c → Hit st F l w (st.redis.key s)) :
    (∀ x, (backend β c w).1 = .error x → Refused F c x) ∧ Reply b F l c (backend β c w).1 := by
  constructor
  · intro x hx
    obtain ⟨he, hn, -⟩ := backend_error hx
    refine ⟨he, fun hu hw => (hn (hs hw)).1 hu, fun hw => (hn (hs hw.1)).2 (hup hw.2)⟩
  cases c with
  | now =>
    intro t ht hw
    cases ht
    exact (hroom hw).clock
  | get k =>
    intro v hv
    obtain rfl := Except.ok.inj (send_ok hv)
    constructor
    · rintro rfl text htext
      exact h.warm w.now text (Int.le_refl _) htext
    · rintro s rfl
      exact h.hitOk (hc s (List.mem_singleton_self _))
  | mget ks =>
    intro vs hvs
    obtain rfl := Except.ok.inj (send_ok hvs)
    exact ⟨w.read, rfl, fun s hs => h.hitOk (hc s hs)⟩
  | activeRow s t =>
    intro o ho
    obtain rfl := Except.ok.inj (send_ok ho)
    constructor
    · intro hb
      obtain ⟨row, hr, hs⟩ := h.shown hb
      rw [List.find?_isSome]
      exact ⟨row, hr, by simpa using hs⟩
    · intro row hr
      have hs : row.scope = s := by simpa using List.find?_some hr
      exact ⟨hs, h.active (List.mem_of_find?_eq_some hr)⟩
  | activeRows ss t =>
    intro rows hrows
    obtain rfl := Except.ok.inj (send_ok hrows)
    constructor
    · intro s hs hb
      obtain ⟨row, hr, rfl⟩ := h.shown hb
      exact ⟨row, List.mem_filter.mpr ⟨hr, by simpa using hs⟩, rfl⟩
    · intro row hr
      obtain ⟨hr, hs⟩ := List.mem_filter.mp hr
      exact ⟨by simpa using hs, h.active hr⟩
  | allActive t =>
    intro rows hrows
    obtain rfl := Except.ok.inj (send_ok hrows)
    refine ⟨fun s hb => h.shown hb, fun row hr => h.active hr, fun hw => ?_⟩
    have := (hroom hw).rows
    unfold Countable at this ⊢
    exact (List.length_filter_le _ _).trans_lt this
  | set k v ex => trivial
  | delete k => trivial
  | scan pre => trivial
  | updateOrCreate s a e t =>
    intro row hrow
    replace hrow : (if a.writable = true then w.sendTable (s.texts ++ a.texts) fun w =>
        (.ok (w.table.upsert s a e t).1, { w with table := (w.table.upsert s a e t).2 })
      else (.error .jsonError, w)).1 = .ok row := hrow
    split at hrow
    · obtain rfl := Except.ok.inj (send_ok hrow)
      exact upsert_scope ..
    · cases hrow
  | revoke s reason revokedBy t => trivial

/-! ## steps that keep the agreement -/

/-- a command after which the world still agrees -/
def Keeps (b : Builtins) (F : Facts st) : {β : Type} → Cmd β → Prop
  | _, .set k v ex => (k = st.redis.warmKey ∧ CoversText b F.banned v) ∨
    ∃ s, k = st.redis.key s ∧ (s.encodable = true → F.mayHit (st.redis.key s)) ∧ Decodes b s v
  | _, .updateOrCreate s a e _ => e = none ∧ (s.encodable = true → F.mayRow s)
  | _, .revoke s _ _ _ => ¬ F.banned s
  | _, _ => True

/-- the writes of a read are of that kind -/
theorem Keeps.of_read {l : CallLog} {β : Type} {c : Cmd β} (hi : Issue b F l c) : Keeps b F c := by
  cases c with
  | set k v ex =>
    rcases hi.2 with ⟨rfl, rows, -, hc, hb⟩ | ⟨s, rfl, hm, hd, -⟩
    · exact .inl ⟨rfl, hc.mono b fun s hs => ⟨F.banned_encodable hs, hb s hs⟩⟩
    · exact .inr ⟨s, rfl, fun _ => F.mayHit_of_row s hm, hd⟩
  | updateOrCreate s a e t => exact hi.elim
  | revoke s reason revokedBy t => exact hi.elim
  | now => trivial
  | get k => trivial
  | mget ks => trivial
  | delete k => trivial
  | scan pre => trivial
  | activeRow s t => trivial
  | activeRows ss t => trivial
  | allActive t => trivial

theorem Agrees.dropped (h : Agrees b F w) (k : Str) : Agrees b F (w.dropped k) where
  permanent := h.permanent
  banned := h.banned
  rows := h.rows
  hits := by
    intro s t v ht hg
    by_cases e : st.redis.key s = k
    · subst e
      replace hg : (w.redis.drop (st.redis.key s)).get t (st.redis.key s) = some v := hg
      rw [ExpMap.get_drop_same] at hg
      cases hg
    · replace hg : (w.redis.drop k).get t (st.redis.key s) = some v := hg
      rw [ExpMap.get_drop_other _ _ e] at hg
      exact h.hits s t v ht hg
  warm := by
    intro t text ht hg
    by_cases e : st.redis.warmKey = k
    · subst e
      replace hg : (w.redis.drop st.redis.warmKey).get t st.redis.warmKey = some text := hg
      rw [ExpMap.get_drop_same] at hg
      cases hg
    · replace hg : (w.redis.drop k).get t st.redis.warmKey = some text := hg
      rw [ExpMap.get_drop_other _ _ e] at hg
      exact h.warm t text ht hg

theorem Agrees.stored (h : Agrees b F w) {k v : Str} {ex : Int} (hk : encodable k = true)
    (hc : Keeps b F (.set k v ex)) : Agrees b F (w.stored k v ex) where
  permanent := h.permanent
  banned := h.banned
  rows := h.rows
  hits := by
    intro s t u ht hg
    replace hg : (w.redis.put k v (w.now + seconds ex)).get t (st.redis.key s) = some u := hg
    by_cases e : st.redis.key s = k
    · subst e
      rw [ExpMap.get_put_same] at hg
      obtain rfl := (Option.ite_some_none_eq_some.mp hg).2
      have hs : s.encodable = true := ((encodable_key st.redis).mp hk).2
      rcases hc with ⟨e, -⟩ | ⟨s', e, hm, hne, hd⟩
      · exact absurd e (key_ne_warmKey st.redis s)
      · rw [e] at hk ⊢
        have hs' : s'.encodable = true := ((encodable_key st.redis).mp hk).2
        exact ⟨hm hs', hne, hd hs'⟩
    · rw [ExpMap.get_put_other _ _ _ _ e] at hg
      exact h.hits s t u ht hg
  warm := by
    intro t text ht hg
    replace hg : (w.redis.put k v (w.now + seconds ex)).get t st.redis.warmKey = some text := hg
    by_cases e : st.redis.warmKey = k
    · subst e
      rw [ExpMap.get_put_same] at hg
      obtain rfl := (Option.ite_some_none_eq_some.mp hg).2
      rcases hc with ⟨-, hc⟩ | ⟨s', e, -⟩
      · exact hc
      · exact absurd e.symm (key_ne_warmKey st.redis s')
    · rw [ExpMap.get_put_other _ _ _ _ e] at hg
      exact h.warm t text ht hg

theorem Agrees.upserted (h : Agrees b F w) {s : BlockScope} {a : BlockArgs} {t : Int}
    (hm : F.mayRow s) (ha : a.writable = true) : Agrees b F (w.upserted s a t) where
  permanent := h.permanent.upsert s a t
  banned s' hs' := Table.mem_scopesOf_upsert.mpr (.inr (h.banned s' hs'))
  rows := by
    intro row hr hu
    rcases Table.mem_upsert hr with hr | ⟨hs, -, he⟩
    · exact h.rows row hr hu
    · refine ⟨?_, ?_⟩
      · rw [hs]
        exact hm
      · rw [he]
        exact ha
  hits := h.hits
  warm := h.warm

theorem Agrees.revoked (h : Agrees b F w) {s : BlockScope} {reason revokedBy : Str} {t : Int}
    (hn : ¬ F.banned s) : Agrees b F (w.revoked s reason revokedBy t) where
  permanent := h.permanent.revoke s reason revokedBy t
  banned s' hs' := Table.mem_scopesOf_revoke.mpr ⟨fun e => hn (e ▸ hs'), h.banned s' hs'⟩
  rows := by
    intro row hr hu
    obtain ⟨r', hr', rfl⟩ := List.mem_map.mp hr
    by_cases hb : r'.blocks s = true
    · rw [if_pos hb] at hu
      cases hu
    · rw [if_neg hb] at hu ⊢
      exact h.rows r' hr' hu
  hits := h.hits
  warm := h.warm

/-- **one command keeps the agreement** -/
theorem Agrees.step (h : Agrees b F w) {β : Type} {c : Cmd β} (hc : Keeps b F c) :
    Agrees b F (backend β c w).2 := by
  have sent : ∀ {texts : List Str} {exc : Fault → Exc} {run : World → Except Exc β × World},
      (texts.all encodable = true → w.fault = none → Agrees b F (run w.sent).2) →
      Agrees b F (w.send texts exc run).2 := by
    intro texts exc run hr
    rcases @send_world _ w texts exc run with e | e | ⟨ht, hf, e⟩
    · rw [e]
      exact h
    · rw [e]
      exact h.sent
    · rw [e]
      exact hr ht hf
  cases c with
  | now => exact h
  | get k => exact sent fun _ _ => h.sent
  | mget ks => exact sent fun _ _ => h.sent
  | scan pre => exact sent fun _ _ => h.sent
  | activeRow s t => exact sent fun _ _ => h.sent
  | activeRows ss t => exact sent fun _ _ => h.sent
  | allActive t => exact sent fun _ _ => h.sent
  | delete k => exact sent fun _ _ => h.dropped k
  | set k v ex =>
    refine sent fun ht _ => ?_
    rw [List.all_cons, Bool.and_eq_true] at ht
    show Agrees b F (if 0 < ex then _ else _ : Except Exc Unit × World).2
    split
    · exact h.stored ht.1 hc
    · exact h.sent
  | updateOrCreate s a e t =>
    show Agrees b F (if a.writable = true then _ else _ : Except Exc Row × World).2
    split
    · rename_i ha
      refine sent fun ht _ => ?_
      obtain ⟨rfl, hm⟩ := hc
      exact h.upserted (hm (encodable_of_texts ht)) ha
    · exact h
  | revoke s reason revokedBy t => exact sent fun _ _ => h.revoked hc

/-- **time and evictions keep the agreement** -/
theorem Agrees.env (h : Agrees b F w) (x : Env) : Agrees b F (x.apply w) := by
  cases x with
  | advance d =>
    refine ⟨h.permanent, h.banned, h.rows, fun s t v ht hg => ?_, fun t text ht hg => ?_⟩
    · have ht' : w.now + d ≤ t := ht
      exact h.hits s t v (by omega) hg
    · have ht' : w.now + d ≤ t := ht
      exact h.warm t text (by omega) hg
  | evict q =>
    refine ⟨h.permanent, h.banned, h.rows, fun s t v ht hg => ?_, fun t text ht hg => ?_⟩
    · replace hg : (w.redis.evict q).get t (st.redis.key s) = some v := hg
      rw [ExpMap.get_evict] at hg
      split at hg
      · cases hg
      · exact h.hits s t v ht hg
    · replace hg : (w.redis.evict q).get t st.redis.warmKey = some text := hg
      rw [ExpMap.get_evict] at hg
      split at hg
      · cases hg
      · exact h.warm t text ht hg

/-! ## a read that runs alone -/

/-- the keys this read has written are there -/
def Kept (st : TieredBlockStore) (l : CallLog) (w : World) : Prop :=
  ∀ s, Wrote (st.redis.key s) l → ∃ v, v ≠ [] ∧ w.read (st.redis.key s) = some v

/-- clock and table are as they were -/
def Still (w w' : World) : Prop := w'.now = w.now ∧ w'.table = w.table

theorem kept_nil (w : World) : Kept st [] w := by
  rintro s ⟨v, ex, hm⟩
  exact absurd hm List.not_mem_nil

theorem wrote_cons {k : Str} {β : Type} {c : Cmd β} {r : Except Exc β} {l : CallLog}
    (h : Wrote k (⟨c, r⟩ :: l)) (hc : c.setKey ≠ some k ∨ r.isOk = false) : Wrote k l := by
  obtain ⟨v, ex, hm⟩ := h
  rcases List.mem_cons.mp hm with he | hm
  · cases he
    rcases hc with hc | hc
    · exact absurd rfl hc
    · cases hc
  · exact ⟨v, ex, hm⟩

theorem Kept.hit {l : CallLog} (hl : Kept st l w) {s : BlockScope} (hc : ¬ F.cached (st.redis.key s)) :
    Hit st F l w (st.redis.key s) := by
  rintro (h | ⟨-, h⟩)
  · exact absurd h hc
  · obtain ⟨v, hne, hv⟩ := hl s h
    rw [hv, nonEmpty_some hne]
    rfl

/-- a command of a read changes nothing, unless it sets a key -/
theorem read_world {l : CallLog} {β : Type} {c : Cmd β} (hi : Issue b F l c)
    (hc : c.setKey = none) : (backend β c w).2 = w ∨ (backend β c w).2 = w.sent := by
  have sent : ∀ {texts : List Str} {exc : Fault → Exc} {run : World → Except Exc β × World},
      (∀ w, (run w).2 = w) →
      (w.send texts exc run).2 = w ∨ (w.send texts exc run).2 = w.sent := by
    intro texts exc run hr
    rcases @send_world _ w texts exc run with e | e | ⟨-, -, e⟩
    · exact .inl e
    · exact .inr e
    · exact .inr (e.trans (hr _))
  cases c with
  | now => exact .inl rfl
  | get k => exact sent fun _ => rfl
  | mget ks => exact sent fun _ => rfl
  | scan pre => exact sent fun _ => rfl
  | activeRow s t => exact sent fun _ => rfl
  | activeRows ss t => exact sent fun _ => rfl
  | allActive t => exact sent fun _ => rfl
  | set k v ex => cases hc
  | delete k => exact hi.elim
  | updateOrCreate s a e t => exact hi.elim
  | revoke s reason revokedBy t => exact hi.elim

theorem still_step {l : CallLog} {β : Type} {c : Cmd β} (hi : Issue b F l c) :
    Still w (backend β c w).2 := by
  have quiet : c.setKey = none → Still w (backend β c w).2 := by
    intro hc
    rcases read_world (w := w) hi hc with e | e
    · rw [e]
      exact ⟨rfl, rfl⟩
    · rw [e]
      exact ⟨rfl, rfl⟩
  cases c with
  | set k v ex =>
    rcases hset : backend _ (.set k v ex) w with ⟨r, w1⟩
    rcases set_cases hset with ⟨-, -, -, -, rfl⟩ | ⟨-, -, rfl⟩ | ⟨-, rfl⟩
    · exact ⟨rfl, rfl⟩
    · exact ⟨rfl, rfl⟩
    · exact ⟨rfl, rfl⟩
  | now => exact quiet rfl
  | get k => exact quiet rfl
  | mget ks => exact quiet rfl
  | scan pre => exact quiet rfl
  | delete k => exact quiet rfl
  | updateOrCreate s a e t => exact quiet rfl
  | revoke s reason revokedBy t => exact quiet rfl
  | activeRow s t => exact quiet rfl
  | activeRows ss t => exact quiet rfl
  | allActive t => exact quiet rfl

/-- what a read has written stays while it runs -/
theorem kept_step {l : CallLog} (hl : Kept st l w) {β : Type} {c : Cmd β} (hi : Issue b F l c) :
    Kept st (⟨c, (backend β c w).1⟩ :: l) (backend β c w).2 := by
  have quiet : c.setKey = none → Kept st (⟨c, (backend β c w).1⟩ :: l) (backend β c w).2 := by
    intro hc s hs
    have hs := wrote_cons hs (.inl (by rw [hc]; exact nofun))
    rcases read_world (w := w) hi hc with e | e
    · rw [e]
      exact hl s hs
    · rw [e]
      exact hl s hs
  cases c with
  | set k v ex =>
    rcases hset : backend _ (.set k v ex) w with ⟨r, w1⟩
    rcases set_cases hset with ⟨rfl, -, hex, -, rfl⟩ | ⟨rfl, -, rfl⟩ | ⟨rfl, rfl⟩
    · intro s hs
      by_cases e : k = st.redis.key s
      · rcases hi.2 with ⟨rfl, -⟩ | ⟨s', -, -, hd, -⟩
        · exact absurd e.symm (key_ne_warmKey st.redis s)
        · refine ⟨v, hd.1, ?_⟩
          show (w.redis.put k v _).get w.now _ = some v
          rw [e, ExpMap.get_put_same, if_pos]
          unfold seconds
          omega
      · obtain ⟨u, hu, hr⟩ := hl s (wrote_cons hs (.inl fun h => e (Option.some.inj h)))
        refine ⟨u, hu, ?_⟩
        show (w.redis.put k v _).get w.now _ = some u
        rw [ExpMap.get_put_other _ _ _ _ fun h => e h.symm]
        exact hr
    · exact fun s hs => hl s (wrote_cons hs (.inr rfl))
    · exact fun s hs => hl s (wrote_cons hs (.inr rfl))
  | now => exact quiet rfl
  | get k => exact quiet rfl
  | mget ks => exact quiet rfl
  | scan pre => exact quiet rfl
  | delete k => exact quiet rfl
  | updateOrCreate s a e t => exact quiet rfl
  | revoke s reason revokedBy t => exact quiet rfl
  | activeRow s t => exact quiet rfl
  | activeRows ss t => exact quiet rfl
  | allActive t => exact quiet rfl

end

end SecAudit
